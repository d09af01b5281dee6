import Mathlib
import Telemetry.Metric
import Telemetry.Proofs.PlainNumbers
import Telemetry.Proofs.RealText
import Telemetry.Proofs.Signing

/-!
# Metrics in plain text

A metric is parsed from three texts: its name, the word for its kind and its number. The kind is
looked at first, then the number, then the name, and so of several faults the first one counts. The
number is a text of the grammar of its kind, in white space or not.

The text of a value is of the grammar of its kind and it is that value. For a count this is plain.
For a level it rests on the decimal that is written: the double is nearest to it, and so the double
is what it is rounded to, even though the reader does not work out a power of ten that is far out of
range.

* `Spells`: the texts that are a value of a kind;
* `Binary64.ofDecimal_of_nearest`: a decimal is rounded to the double that is nearest to it;
* `isDecimal_pointAfter`: digits with a point after some of them are a decimal;
* `spells_text`: a value's own text;
* `parsesPlainText`: which texts are parsed, what fails first, and that a metric comes back.
-/

namespace Telemetry

/-- **A text is a value** of a kind. -/
inductive Spells : Kind → List Char → Value → Prop where
  /-- A real is a level. -/
  | gauge {cs : List Char} {x : Binary64} (h : IsReal cs x) : Spells .gauge cs (.gauge x)
  /-- A numeral is a count, if 64 bits hold it. -/
  | counter {cs : List Char} {n : Int64} (h : IsNumeral cs n.toInt) :
    Spells .counter cs (.counter n)

/-- What is spelled under a kind is of that kind. -/
theorem Spells.kind_eq {kind : Kind} {cs : List Char} {v : Value} (h : Spells kind cs v) :
    v.kind = kind := by
  cases h <;> rfl

/-! ### White space -/

/-- Nothing in a number is white space. -/
theorem isBlank_of_isDigit {c : Char} (h : isDigit c = true) : isBlank c = false := by
  simp only [isDigit, Bool.and_eq_true, decide_eq_true_eq, Char.le_def, UInt32.le_iff_toNat_le] at h
  obtain ⟨hlow, hhigh⟩ := h
  have hlow' : 48 ≤ c.toNat := hlow
  have hhigh' : c.toNat ≤ 57 := hhigh
  simp only [isBlank, Bool.or_eq_false_iff, Bool.and_eq_false_iff, decide_eq_false_iff_not,
    beq_eq_false_iff_ne]
  omega

theorem Signed.isBlank_eq_false {α : Type} {Unsigned : Bool → List Char → α → Prop}
    {cs : List Char} {a : α} (h : Signed Unsigned cs a)
    (hU : ∀ {negative cs a}, Unsigned negative cs a → ∀ c ∈ cs, isBlank c = false) :
    ∀ c ∈ cs, isBlank c = false := by
  cases h with
  | plain h => exact hU h
  | plus h => exact List.forall_mem_cons.2 ⟨by decide, hU h⟩
  | minus h => exact List.forall_mem_cons.2 ⟨by decide, hU h⟩

theorem IsNumeral.isBlank_eq_false {cs : List Char} {k : Int} (h : IsNumeral cs k) :
    ∀ c ∈ cs, isBlank c = false :=
  Signed.isBlank_eq_false h fun h c hc => isBlank_of_isDigit (h.1.2 c hc)

theorem IsExponent.isBlank_eq_false {cs : List Char} {k : Int} (h : IsExponent cs k) :
    ∀ c ∈ cs, isBlank c = false := by
  cases h with
  | none => exact nofun
  | some he h =>
    refine List.forall_mem_cons.2 ⟨?_, h.isBlank_eq_false⟩
    rcases he with rfl | rfl <;> decide

theorem IsDecimal.isBlank_eq_false {cs : List Char} {d : Decimal} (h : IsDecimal cs d) :
    ∀ c ∈ cs, isBlank c = false := by
  cases h with
  | whole hws hes =>
    exact List.forall_mem_append.2
      ⟨fun c hc => isBlank_of_isDigit (hws.2 c hc), hes.isBlank_eq_false⟩
  | pointed h hes =>
    obtain ⟨hws, hfs⟩ := List.forall_mem_append.1 h.2
    refine List.forall_mem_append.2 ⟨fun c hc => isBlank_of_isDigit (hws c hc), ?_⟩
    refine List.forall_mem_cons.2 ⟨by decide, List.forall_mem_append.2 ⟨?_, hes.isBlank_eq_false⟩⟩
    exact fun c hc => isBlank_of_isDigit (hfs c hc)

/-- White space has no capitals. -/
theorem toLower_of_isBlank {c : Char} (h : isBlank c = true) : c.toLower = c := by
  rw [Char.toLower, dif_neg]
  rintro ⟨hlow, hhigh⟩
  have hlow' : 65 ≤ c.toNat := UInt32.le_iff_toNat_le.1 hlow
  have hhigh' : c.toNat ≤ 90 := UInt32.le_iff_toNat_le.1 hhigh
  simp only [isBlank, Bool.or_eq_true, Bool.and_eq_true, decide_eq_true_eq, beq_iff_eq] at h
  omega

theorem isBlank_eq_false_of_word {cs word : List Char} (h : cs.map Char.toLower = word)
    (hword : word.any isBlank = false) : ∀ c ∈ cs, isBlank c = false := by
  intro c hc
  refine Bool.eq_false_iff.2 fun hb => ?_
  have hmem : c.toLower ∈ word := h ▸ List.mem_map_of_mem hc
  rw [toLower_of_isBlank hb] at hmem
  exact List.any_eq_false.1 hword c hmem hb

theorem IsReal.isBlank_eq_false {cs : List Char} {x : Binary64} (h : IsReal cs x) :
    ∀ c ∈ cs, isBlank c = false := by
  refine Signed.isBlank_eq_false h fun h => ?_
  cases h with
  | infinity h =>
    rcases h with h | h
    · exact isBlank_eq_false_of_word h rfl
    · exact isBlank_eq_false_of_word h rfl
  | nan h => exact isBlank_eq_false_of_word h rfl
  | decimal h => exact h.isBlank_eq_false

/-- **Nothing in a value is white space.** -/
theorem Spells.isBlank_eq_false {kind : Kind} {cs : List Char} {v : Value} (h : Spells kind cs v) :
    ∀ c ∈ cs, isBlank c = false := by
  cases h with
  | gauge h => exact h.isBlank_eq_false
  | counter h => exact h.isBlank_eq_false

/-! ### Whole numbers -/

open Json in
/-- The number that digits write, be they characters or numbers. -/
theorem numberBehind_digits {ds : List Nat} (hds : ∀ x ∈ ds, x < 10) (m : Nat) :
    numberBehind m (ds.map Nat.digitChar) = digitsBehind m ds := by
  have hdigit : ∀ d < 10, digitValue? (Nat.digitChar d) = some d := by decide
  induction ds generalizing m with
  | nil => rfl
  | cons d ds ih =>
    obtain ⟨hd, hds⟩ := List.forall_mem_cons.1 hds
    show numberBehind (10 * m + (digitValue? (Nat.digitChar d)).getD 0) _ = _
    rw [hdigit d hd, ih hds]
    rfl

/-- Digits as characters. -/
theorem areDigits_map {ds : List Nat} (hne : ds ≠ []) (hds : ∀ x ∈ ds, x < 10) :
    AreDigits (ds.map Nat.digitChar) := by
  have hdigit : ∀ d < 10, isDigit (Nat.digitChar d) = true := by decide
  refine ⟨mt List.map_eq_nil_iff.1 hne, fun c hc => ?_⟩
  obtain ⟨d, hd, rfl⟩ := List.mem_map.1 hc
  exact hdigit d (hds d hd)

/-- **The digits of a natural number** are digits, and they are this number. -/
theorem areDigits_toDigits (n : Nat) :
    AreDigits (Nat.toDigits 10 n) ∧ digitsValue (Nat.toDigits 10 n) = n := by
  obtain ⟨ds, hchars, hvalue, -⟩ := Json.exists_digits n
  rw [← hchars]
  exact ⟨areDigits_map ds.ne_nil ds.lt_ten, (numberBehind_digits ds.lt_ten 0).trans hvalue⟩

/-- **The text of a count** is a numeral that is this count. -/
theorem isNumeral_text (n : Int64) : IsNumeral (Value.text (.counter n)).toList n.toInt := by
  show IsNumeral (Json.intChars n.toInt) n.toInt
  rcases Json.int64_cases n with ⟨k, -, hk⟩ | ⟨k, hk0, -, hk⟩
  · obtain ⟨hdigits, hvalue⟩ := areDigits_toDigits k
    rw [hk, Json.intChars_natCast]
    exact .plain ⟨hdigits, congrArg Nat.cast hvalue.symm⟩
  · obtain ⟨hdigits, hvalue⟩ := areDigits_toDigits k
    rw [hk, Json.intChars_neg_natCast hk0]
    exact .minus ⟨hdigits, congrArg (fun m : Nat => -(m : Int)) hvalue.symm⟩

/-! ### Rounding a decimal -/

/-- How large a decimal is, by the number of its digits. -/
theorem Decimal.value_bounds {d : Decimal} (hd : 0 < d.significand) :
    (10 : ℚ) ^ (d.exponent + digitCount d.significand - 1) ≤ d.value ∧
      d.value < 10 ^ (d.exponent + digitCount d.significand) := by
  obtain ⟨k, hk, hlt, hle⟩ := digitCount_spec d.significand
  have hpow := ten_zpow_pos d.exponent
  have hlow : (10 : ℚ) ^ k ≤ d.significand := by exact_mod_cast hle hd
  have hhigh : (d.significand : ℚ) < 10 ^ (k + 1) := by exact_mod_cast hlt
  have hexponent : d.exponent + (k + 1 : Nat) - 1 = k + d.exponent := by
    push_cast
    ring
  have hexponent' : d.exponent + (k + 1 : Nat) = (k + 1 : Nat) + d.exponent := add_comm ..
  rw [hk, hexponent, hexponent', zpow_add₀ (by norm_num), zpow_add₀ (by norm_num), zpow_natCast,
    zpow_natCast, value]
  exact ⟨mul_le_mul_of_nonneg_right hlow hpow.le, mul_lt_mul_of_pos_right hhigh hpow⟩

/-- **A decimal is rounded to the double that is nearest to it.** Its power of ten is worked out
then: a decimal that is left out for its size is not nearest to a finite double other than zero. -/
theorem Binary64.ofDecimal_of_nearest {r : Rank} (hpos : 0 < r.val) (hr : r.val < infiniteRank)
    {d : Decimal} (hd : 0 < d.significand) (h : Nearest r.val (d.value * unitsPerOne))
    (negative : Bool) : ofDecimal negative d = .signed negative r := by
  obtain ⟨hlow, hhigh⟩ := Decimal.value_bounds hd
  have hone : (0 : ℚ) < unitsPerOne := Nat.cast_pos.2 unitsPerOne_pos
  have htop : d.exponent + digitCount d.significand ≤ 310 := by
    by_contra hlarge
    have hlast : (units infiniteRank : ℚ) < 10 ^ (310 : Int) * unitsPerOne := by
      exact_mod_cast (show units infiniteRank < 10 ^ 310 * unitsPerOne by decide +kernel)
    have hself : (units r.val : ℚ) ≤ units infiniteRank := by
      exact_mod_cast units_strictMono.monotone hr.le
    have hnext : (units (r.val + 1) : ℚ) ≤ units infiniteRank := by
      exact_mod_cast units_strictMono.monotone hr
    have hpow : (10 : ℚ) ^ (310 : Int) ≤ d.value :=
      (zpow_le_zpow_right₀ (by norm_num) (by omega)).trans hlow
    have hvalue := mul_le_mul_of_nonneg_right hpow hone.le
    have := h.high
    linarith
  have hbottom : -330 ≤ d.exponent + digitCount d.significand := by
    by_contra hsmall
    have hfirst : (10 : ℚ) ^ (-330 : Int) * unitsPerOne < 1 / 2 := by
      rw [zpow_neg, inv_mul_lt_iff₀ (by positivity)]
      have : 2 * unitsPerOne < 10 ^ 330 := by decide +kernel
      have : (2 * unitsPerOne : ℚ) < 10 ^ (330 : Int) := by exact_mod_cast this
      linarith
    have hself : (1 : ℚ) ≤ units r.val := by
      exact_mod_cast Nat.pos_of_ne_zero (mt units_eq_zero_iff.1 hpos.ne')
    have hpow : d.value < (10 : ℚ) ^ (-330 : Int) :=
      hhigh.trans_le (zpow_le_zpow_right₀ (by norm_num) (by omega))
    have hvalue := mul_lt_mul_of_pos_right hpow hone
    have hbelow : (0 : ℚ) ≤ units (r.val - 1) := Nat.cast_nonneg _
    have := h.low
    linarith
  have hden : 0 < Nat.pow 10 (-d.exponent).toNat := Nat.pow_pos (by decide)
  have hfraction : ((d.significand * Nat.pow 10 d.exponent.toNat : Nat) * unitsPerOne /
      (Nat.pow 10 (-d.exponent).toNat : Nat) : ℚ) = d.value * unitsPerOne := by
    have hscale : (0 : ℚ) < 10 ^ (-d.exponent).toNat := by positivity
    rw [Decimal.value, Nat.pow_eq, Nat.pow_eq]
    push_cast
    rw [div_eq_iff hscale.ne', ← ten_zpow_mul d.exponent]
    ring
  have hrank := nearestRank_of_nearest hden hr (hfraction ▸ h)
  have hclamp : Rank.clamp r.val = r := Fin.ext (Nat.min_eq_left hr.le)
  unfold ofDecimal
  simp only
  rw [if_neg hd.ne', if_neg (Int.not_lt.2 htop), if_neg (Int.not_lt.2 hbottom), ofFraction, hrank,
    hclamp]

/-! ### Levels -/

section

open Json

/-- Digits, and digits with a point among them, are decimals. -/
theorem isDecimal_whole {ws : List Nat} (hne : ws ≠ []) (hws : ∀ x ∈ ws, x < 10) :
    IsDecimal (ws.map Nat.digitChar) ⟨digitsBehind 0 ws, 0⟩ := by
  have hdecimal := IsDecimal.whole (areDigits_map hne hws) .none
  rwa [List.append_nil, show digitsValue (ws.map Nat.digitChar) = digitsBehind 0 ws from
    numberBehind_digits hws 0] at hdecimal

theorem isDecimal_pointed {ws fs : List Nat} (hne : ws ++ fs ≠ []) (h : ∀ x ∈ ws ++ fs, x < 10) :
    IsDecimal (ws.map Nat.digitChar ++ '.' :: fs.map Nat.digitChar)
      ⟨digitsBehind 0 (ws ++ fs), -fs.length⟩ := by
  have hdigits := areDigits_map hne h
  rw [List.map_append] at hdigits
  have hdecimal := IsDecimal.pointed hdigits .none
  rwa [List.append_nil, ← List.map_append, List.length_map, zero_sub,
    show digitsValue ((ws ++ fs).map Nat.digitChar) = digitsBehind 0 (ws ++ fs) from
      numberBehind_digits h 0] at hdecimal

/-- **Digits with a point after some of them**, or with zeros up to the point, are a decimal. -/
theorem isDecimal_pointAfter {ds : List Nat} (hne : ds ≠ []) (hds : ∀ x ∈ ds, x < 10) (k : Int) :
    ∃ d, IsDecimal (FloatStyle.pointAfter k (ds.map Nat.digitChar) false) d ∧
      d.value = digitsBehind 0 ds * 10 ^ (k - ds.length) := by
  have hzeros : ∀ n, ∀ x ∈ List.replicate n 0, x < 10 := fun n x hx => by
    rw [List.eq_of_mem_replicate hx]
    decide
  by_cases hk0 : k ≤ 0
  · have hall : ∀ x ∈ [0] ++ (List.replicate (-k).toNat 0 ++ ds), x < 10 :=
      List.forall_mem_append.2 ⟨hzeros 1, List.forall_mem_append.2 ⟨hzeros _, hds⟩⟩
    have hexponent : -((List.replicate (-k).toNat 0 ++ ds).length : Int) = k - ds.length := by
      rw [List.length_append, List.length_replicate]
      omega
    rw [pointAfter_of_nonpos hk0]
    refine ⟨_, isDecimal_pointed (by simp) hall, ?_⟩
    rw [Decimal.value, hexponent, List.singleton_append, digitsBehind_zero_cons,
      digitsBehind_zeros]
  · obtain ⟨j, rfl⟩ : ∃ j : Nat, k = (j + 1 : Nat) := ⟨k.toNat - 1, by omega⟩
    by_cases hj : ds.length ≤ j + 1
    · have hall : ∀ x ∈ ds ++ List.replicate (j + 1 - ds.length) 0, x < 10 :=
        List.forall_mem_append.2 ⟨hds, hzeros _⟩
      have hexponent : ((j + 1 : Nat) : Int) - ds.length = (j + 1 - ds.length : Nat) := by
        omega
      rw [pointAfter_of_length_le j.succ_pos hj, if_neg Bool.false_ne_true, List.append_nil]
      refine ⟨_, isDecimal_whole (by simp [hne]) hall, ?_⟩
      rw [Decimal.value, digitsBehind_append, digitsBehind_replicate, hexponent, zpow_natCast]
      push_cast
      exact mul_one _
    · have hlt := Nat.not_le.1 hj
      have hexponent : -((ds.drop (j + 1)).length : Int) = (j + 1 : Nat) - ds.length := by
        rw [List.length_drop]
        omega
      have hself := List.take_append_drop (j + 1) ds
      rw [pointAfter_of_lt_length j.succ_pos hlt]
      refine ⟨_, isDecimal_pointed (hself.symm ▸ hne) (hself.symm ▸ hds), ?_⟩
      rw [Decimal.value, hexponent, hself]

end

/-- **The text of a finite double** other than zero, but for its sign, is a decimal that is rounded
to it. -/
theorem isMagnitude_decimalChars {r : Rank} (hpos : 0 < r.val) (hr : r.val < infiniteRank)
    (negative : Bool) :
    IsMagnitude negative (FloatStyle.plain.decimalChars (Decimal.shortest r.val))
      (.signed negative r) := by
  have hnear := Decimal.near_shortest hpos
  obtain ⟨a, ds, -, ha, hds, htext, hvalue⟩ := Json.toDigits_eq_cons hnear.significand_pos
  have hdigits : ∀ x ∈ a :: ds, x < 10 := List.forall_mem_cons.2 ⟨ha, hds⟩
  obtain ⟨d, hd, hsame⟩ := isDecimal_pointAfter (List.cons_ne_nil a ds) hdigits
    ((Decimal.shortest r.val).exponent + (a :: ds).length)
  have hself : Json.digitsBehind 0 (a :: ds) = (Decimal.shortest r.val).significand := by
    rw [← hvalue]
    simp [Json.digitsBehind]
  rw [hself, Int.add_sub_cancel] at hsame
  have hchars : FloatStyle.plain.decimalChars (Decimal.shortest r.val) =
      FloatStyle.pointAfter ((Decimal.shortest r.val).exponent + (a :: ds).length)
        ((a :: ds).map Nat.digitChar) false := by
    rw [FloatStyle.decimalChars, htext, ← List.map_cons, List.length_map]
    rfl
  have hdpos : 0 < d.significand := by
    refine Nat.pos_of_ne_zero fun hzero => ?_
    have hnonzero : (0 : ℚ) < (Decimal.shortest r.val).value :=
      mul_pos (Nat.cast_pos.2 hnear.significand_pos) (ten_zpow_pos _)
    rw [← show d.value = (Decimal.shortest r.val).value from hsame, Decimal.value, hzero,
      Nat.cast_zero, zero_mul] at hnonzero
    exact lt_irrefl _ hnonzero
  rw [hchars, ← Binary64.ofDecimal_of_nearest hpos hr hdpos (hsame ▸ hnear.nearest) negative]
  exact .decimal hd

/-- **The text of a double** that is a number is a real that is this double. -/
theorem isReal_chars {x : Binary64} (hx : x.isNaN = false) :
    IsReal (FloatStyle.plain.chars x) x := by
  cases x with
  | nan => cases hx
  | signed s r =>
    have hmagnitude : IsMagnitude s (if r.val = infiniteRank then "inf".toList
        else if r.val = 0 then ['0'] else FloatStyle.plain.decimalChars (Decimal.shortest r.val))
        (.signed s r) := by
      split
      · rename_i hr
        have hclamp : Rank.clamp infiniteRank = r := Fin.ext ((Nat.min_self _).trans hr.symm)
        rw [← hclamp]
        exact .infinity (.inl (by decide))
      · rename_i hinfinite
        split
        · rename_i hr
          have hclamp : Rank.clamp 0 = r := Fin.ext ((Nat.zero_min _).trans hr.symm)
          rw [← hclamp]
          exact .decimal (isDecimal_whole (List.cons_ne_nil 0 []) (by decide))
        · rename_i hr
          exact isMagnitude_decimalChars (Nat.pos_of_ne_zero hr)
            (lt_of_le_of_ne (Nat.le_of_lt_succ r.isLt) hinfinite) s
    have hchars : FloatStyle.plain.chars (.signed s r) =
        (if s then ['-'] else []) ++ (if r.val = infiniteRank then "inf".toList
          else if r.val = 0 then ['0']
          else FloatStyle.plain.decimalChars (Decimal.shortest r.val)) := by
      unfold FloatStyle.chars
      simp only
      split
      · rfl
      · split <;> rfl
    rw [hchars]
    cases s with
    | false => exact .plain hmagnitude
    | true => exact .minus hmagnitude

/-- **The text of a value is this value**, unless it is what is not a number. -/
theorem spells_text {v : Value} (hv : v ≠ .gauge .nan) : Spells v.kind v.text.toList v := by
  cases v with
  | gauge x =>
    have hx : x.isNaN = false := by
      cases x with
      | nan => exact absurd rfl hv
      | signed s r => rfl
    show Spells .gauge (String.ofList (FloatStyle.plain.chars x)).toList _
    rw [String.toList_ofList]
    exact .gauge (isReal_chars hx)
  | counter n => exact .counter (isNumeral_text n)

/-! ### Parsing -/

namespace Metric

/-- **A raw text is read as a value** exactly if it is this value, white space around it aside. -/
theorem parseValue_eq_ok_iff {kind : Kind} {raw : String} {v : Value} :
    parseValue kind raw = .ok v ↔ Spells kind (trimBlank raw.toList) v := by
  cases kind with
  | gauge =>
    have hspells : Spells .gauge (trimBlank raw.toList) v ↔
        ∃ x, v = .gauge x ∧ readFloat (trimBlank raw.toList) = .ok x :=
      ⟨fun | .gauge h => ⟨_, rfl, readFloat_eq_ok_iff.2 h⟩,
        fun ⟨_, hv, h⟩ => hv ▸ .gauge (readFloat_eq_ok_iff.1 h)⟩
    rw [hspells, parseValue]
    cases readFloat (trimBlank raw.toList) <;> simp [eq_comm]
  | counter =>
    have hspells : Spells .counter (trimBlank raw.toList) v ↔
        ∃ n, v = .counter n ∧ readInt64 (trimBlank raw.toList) = .ok n :=
      ⟨fun | .counter h => ⟨_, rfl, readInt64_eq_ok_iff.2 h⟩,
        fun ⟨_, hv, h⟩ => hv ▸ .counter (readInt64_eq_ok_iff.1 h)⟩
    rw [hspells, parseValue]
    cases readInt64 (trimBlank raw.toList) <;> simp [eq_comm]

/-- **A raw text that is no value** is quoted in the failure. -/
theorem parseValue_eq_error {kind : Kind} {raw : String}
    (h : ∀ v, ¬Spells kind (trimBlank raw.toList) v) :
    ∃ why, parseValue kind raw = .error (unreadable raw why) := by
  cases hread : parseValue kind raw with
  | ok v => exact absurd (parseValue_eq_ok_iff.1 hread) (h v)
  | error e =>
    cases kind with
    | gauge =>
      rw [parseValue] at hread
      split at hread <;> cases hread
      exact ⟨_, rfl⟩
    | counter =>
      rw [parseValue] at hread
      split at hread <;> cases hread
      exact ⟨_, rfl⟩

/-- With the word for a kind it is the number that is looked at, and then the name. -/
theorem parse_tag (name raw : String) (kind : Kind) :
    parse name kind.tag raw = (parseValue kind raw).bind (ofValue name) := by
  rw [parse, Kind.ofTag_tag]
  show (parseValue kind raw).bind (make name kind) = _
  cases hread : parseValue kind raw with
  | error e => rfl
  | ok v => exact make_of_kind (parseValue_eq_ok_iff.1 hread).kind_eq

/-- **A metric is parsed** exactly if the number is its value, and then the name is its name. -/
theorem parse_eq_ok_iff {name raw : String} {kind : Kind} {m : Metric} :
    parse name kind.tag raw = .ok m ↔
      m.name = name ∧ Spells kind (trimBlank raw.toList) m.value := by
  rw [parse_tag]
  cases hread : parseValue kind raw with
  | error e =>
    refine iff_of_false (fun h => by cases h) ?_
    rintro ⟨-, h⟩
    rw [parseValue_eq_ok_iff.2 h] at hread
    cases hread
  | ok v =>
    show ofValue name v = .ok m ↔ _
    rw [ofValue_eq_ok_iff, ← parseValue_eq_ok_iff, hread, Except.ok.injEq, eq_comm (a := v)]

end Metric

/-- **What is known of metrics in plain text.** -/
structure ParsesPlainText : Prop where
  /-- **The grammar is exact.** -/
  grammar (name raw : String) (kind : Kind) (m : Metric) :
    Metric.parse name kind.tag raw = .ok m ↔
      m.name = name ∧ Spells kind (trimBlank raw.toList) m.value
  /-- **A counter is parsed** exactly if there is a name, and the number is a numeral that 64 bits
  hold. -/
  counter (name raw : String) :
    (∃ m, Metric.parse name "counter" raw = .ok m) ↔
      name ≠ "" ∧ ∃ k, IsNumeral (trimBlank raw.toList) k ∧ InRange k
  /-- It has this name then, and this number for its value. -/
  counted (name raw : String) (m : Metric) (h : Metric.parse name "counter" raw = .ok m) :
    m.name = name ∧ ∃ n, m.value = .counter n ∧ IsNumeral (trimBlank raw.toList) n.toInt
  /-- **Another word for the kind fails**, whatever the name and the number are. -/
  unknownKind (name raw tag : String) (hgauge : tag ≠ "gauge") (hcounter : tag ≠ "counter") :
    Metric.parse name tag raw = .error (.unknownKind tag)
  /-- **A text that is no value fails next**, whatever the name is. -/
  badValue (name raw : String) (kind : Kind) (h : ∀ v, ¬Spells kind (trimBlank raw.toList) v) :
    ∃ why, Metric.parse name kind.tag raw = .error (.badValue (quote raw ++ ": " ++ why))
  /-- An empty name fails last. -/
  emptyName (raw : String) (kind : Kind) (v : Value) (h : Spells kind (trimBlank raw.toList) v) :
    Metric.parse "" kind.tag raw = .error .emptyName
  /-- **A metric comes back** from its own name, kind and value, with any white space around the
  last one. -/
  back (m : Metric) (hm : m.value ≠ .gauge .nan) (before behind : List Char)
    (hbefore : ∀ c ∈ before, isBlank c = true) (hbehind : ∀ c ∈ behind, isBlank c = true) :
    Metric.parse m.name m.kind.tag (String.ofList (before ++ (m.value.text.toList ++ behind))) =
      .ok m

/-- **Metrics in plain text are parsed by the grammar of their kind**, and every metric comes back
from its own texts. -/
theorem parsesPlainText : ParsesPlainText where
  grammar _ _ _ _ := Metric.parse_eq_ok_iff
  counter name raw := by
    rw [show "counter" = Kind.counter.tag from rfl]
    constructor
    · rintro ⟨m, h⟩
      obtain ⟨rfl, hspells⟩ := Metric.parse_eq_ok_iff.1 h
      refine ⟨m.named, ?_⟩
      generalize m.value = v at hspells
      cases hspells with
      | @counter _ n h => exact ⟨n.toInt, h, n.minValue_le_toInt, n.toInt_le⟩
    · rintro ⟨hname, k, hk, hlow, hhigh⟩
      have hself : (Int64.ofInt k).toInt = k :=
        Int64.toInt_ofInt_of_le hlow (Int.lt_of_le_of_lt hhigh (by decide))
      exact ⟨⟨name, .counter (Int64.ofInt k), hname⟩,
        Metric.parse_eq_ok_iff.2 ⟨rfl, .counter (hself.symm ▸ hk)⟩⟩
  counted name raw m h := by
    rw [show "counter" = Kind.counter.tag from rfl] at h
    obtain ⟨hname, hspells⟩ := Metric.parse_eq_ok_iff.1 h
    refine ⟨hname, ?_⟩
    generalize m.value = v at hspells
    cases hspells with
    | counter h => exact ⟨_, rfl, h⟩
  unknownKind name raw tag hgauge hcounter := by
    have htag : Kind.ofTag tag = .error (.unknownKind tag) := by
      rw [Kind.ofTag, if_neg hgauge, if_neg hcounter]
    rw [Metric.parse, htag]
    rfl
  badValue name raw kind h := by
    obtain ⟨why, hwhy⟩ := Metric.parseValue_eq_error h
    rw [Metric.parse_tag, hwhy]
    exact ⟨why, rfl⟩
  emptyName raw kind v h := by
    rw [Metric.parse_tag, Metric.parseValue_eq_ok_iff.2 h]
    rfl
  back m hm before behind hbefore hbehind := by
    have hspells := spells_text hm
    refine Metric.parse_eq_ok_iff.2 ⟨rfl, ?_⟩
    rw [String.toList_ofList, trimBlank_append hbefore hspells.isBlank_eq_false hbehind]
    exact hspells

example : (Metric.parse "depth" "counter" " +007\t").toOption.map Metric.value =
    some (.counter 7) := by
  decide +kernel

-- the number is looked at in front of the name, and a blank inside it is one too many
example : Metric.parse "" "counter" "1 2" =
    .error (.badValue "\"1 2\": invalid digit found in string") := by
  decide +kernel

end Telemetry
