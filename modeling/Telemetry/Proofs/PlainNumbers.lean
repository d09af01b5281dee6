import Mathlib
import Telemetry.Number.Reading
import Telemetry.Proofs.Totals

/-!
# Numbers in plain texts

Two grammars say which plain texts are numbers and which number each of them is. A **numeral** is a
sign or none and one or more digits; a **real** is a sign or none and a word for infinity or for
what is not a number, or digits, of which there is at least one, with at most one point among them
and perhaps an exponent behind, which is a numeral again. Neither grammar knows how texts are read.

The readers go by them exactly. A reader of 64 bits stops at the first digit that leaves the range;
since a number only grows with each digit, that is no other condition than that the whole number is
out of range.

* `Signed`, `signed_minus_iff`, `signed_plus_iff`, `signed_plain_iff`: a sign or none;
* `IsNumeral`, `readInt64_eq_ok_iff`: whole numbers;
* `IsDecimal`, `readDecimal?_eq_some_iff`: decimals;
* `IsReal`, `readFloat_eq_ok_iff`: doubles.
-/

namespace Telemetry

/-! ### The grammars -/

/-- One or more digits and nothing else. -/
def AreDigits (ds : List Char) : Prop := ds ≠ [] ∧ ∀ c ∈ ds, isDigit c = true

/-- **A sign or none**, with a text behind it that is something under that sign. -/
inductive Signed {α : Type} (Unsigned : Bool → List Char → α → Prop) : List Char → α → Prop where
  /-- No sign. -/
  | plain {cs : List Char} {a : α} (h : Unsigned false cs a) : Signed Unsigned cs a
  /-- A plus sign. -/
  | plus {cs : List Char} {a : α} (h : Unsigned false cs a) : Signed Unsigned ('+' :: cs) a
  /-- A minus sign. -/
  | minus {cs : List Char} {a : α} (h : Unsigned true cs a) : Signed Unsigned ('-' :: cs) a

/-- Digits, and the whole number that they are under a sign. -/
def IsCount (negative : Bool) (ds : List Char) (k : Int) : Prop :=
  AreDigits ds ∧ k = if negative then -(digitsValue ds : Int) else digitsValue ds

/-- **A numeral**, and the whole number that it is. -/
def IsNumeral : List Char → Int → Prop := Signed IsCount

/-- What may stand behind digits, and the power of ten that it is. -/
inductive IsExponent : List Char → Int → Prop where
  /-- Nothing. -/
  | none : IsExponent [] 0
  /-- A letter and a numeral. -/
  | some {e : Char} {cs : List Char} {k : Int} (he : e = 'e' ∨ e = 'E') (h : IsNumeral cs k) :
    IsExponent (e :: cs) k

/-- **Digits with at most one point among them**, an exponent perhaps behind them, and the decimal
that they are. -/
inductive IsDecimal : List Char → Decimal → Prop where
  /-- No point. -/
  | whole {ws es : List Char} {k : Int} (hws : AreDigits ws) (hes : IsExponent es k) :
    IsDecimal (ws ++ es) ⟨digitsValue ws, k⟩
  /-- A point, with a digit in front of it or behind it. -/
  | pointed {ws fs es : List Char} {k : Int} (h : AreDigits (ws ++ fs)) (hes : IsExponent es k) :
    IsDecimal (ws ++ '.' :: (fs ++ es)) ⟨digitsValue (ws ++ fs), k - fs.length⟩

/-- What may stand behind the sign of a double, and the double that it is then. -/
inductive IsMagnitude (negative : Bool) : List Char → Binary64 → Prop where
  /-- Infinity, in letters of any case. -/
  | infinity {cs : List Char}
    (h : cs.map Char.toLower = "inf".toList ∨ cs.map Char.toLower = "infinity".toList) :
    IsMagnitude negative cs (.infinity negative)
  /-- Not a number, in letters of any case. -/
  | nan {cs : List Char} (h : cs.map Char.toLower = "nan".toList) : IsMagnitude negative cs .nan
  /-- A decimal, rounded. -/
  | decimal {cs : List Char} {d : Decimal} (h : IsDecimal cs d) :
    IsMagnitude negative cs (.ofDecimal negative d)

/-- **A real**, and the double that it is. -/
def IsReal : List Char → Binary64 → Prop := Signed IsMagnitude

/-! ### Signs -/

section

variable {α : Type} {Unsigned : Bool → List Char → α → Prop} {cs : List Char} {a : α}

/-- Something that does not begin with a sign. -/
def Unsignable (Unsigned : Bool → List Char → α → Prop) : Prop :=
  ∀ {negative cs a}, Unsigned negative cs a → ∀ {c}, c = '+' ∨ c = '-' → ∀ r, cs ≠ c :: r

/-- Behind a minus sign, behind a plus sign, and behind none. -/
theorem signed_minus_iff (hU : Unsignable Unsigned) :
    Signed Unsigned ('-' :: cs) a ↔ Unsigned true cs a := by
  constructor
  · generalize hds : '-' :: cs = ds
    rintro (h | h | h)
    · exact absurd hds.symm (hU h (.inr rfl) cs)
    · cases hds
    · cases hds
      exact h
  · exact .minus

theorem signed_plus_iff (hU : Unsignable Unsigned) :
    Signed Unsigned ('+' :: cs) a ↔ Unsigned false cs a := by
  constructor
  · generalize hds : '+' :: cs = ds
    rintro (h | h | h)
    · exact absurd hds.symm (hU h (.inl rfl) cs)
    · cases hds
      exact h
    · cases hds
  · exact .plus

theorem signed_plain_iff (hminus : ∀ r, cs ≠ '-' :: r) (hplus : ∀ r, cs ≠ '+' :: r) :
    Signed Unsigned cs a ↔ Unsigned false cs a := by
  constructor
  · rintro (h | h | h)
    · exact h
    · exact absurd rfl (hplus _)
    · exact absurd rfl (hminus _)
  · exact .plain

end

/-! ### Digits -/

/-- The number that digits write behind a number. -/
def numberBehind (n : Nat) (cs : List Char) : Nat :=
  cs.foldl (fun n c => 10 * n + (digitValue? c).getD 0) n

/-- With each digit a number grows or stays as it is. -/
theorem le_numberBehind (n : Nat) (cs : List Char) : n ≤ numberBehind n cs := by
  induction cs generalizing n with
  | nil => exact le_rfl
  | cons c cs ih => exact le_trans (by omega) (ih (10 * n + (digitValue? c).getD 0))

/-- **Digits are read up to their end** if the whole number that they write is in the range. -/
theorem readDigits_eq_ok_iff {limit : Nat} {overflow : IntFault} {n m : Nat} (hn : n ≤ limit)
    {cs : List Char} :
    readDigits limit overflow n cs = .ok m ↔
      (∀ c ∈ cs, isDigit c = true) ∧ numberBehind n cs = m ∧ m ≤ limit := by
  induction cs generalizing n with
  | nil =>
    rw [readDigits, Except.ok.injEq]
    exact ⟨fun h => ⟨List.forall_mem_nil _, h, h ▸ hn⟩, fun h => h.2.1⟩
  | cons c cs ih =>
    have hdigit := digitValue?_isSome c
    rw [readDigits, List.forall_mem_cons]
    cases hc : digitValue? c with
    | none =>
      rw [hc] at hdigit
      simp [← hdigit]
    | some d =>
      rw [hc] at hdigit
      have hbehind : numberBehind n (c :: cs) = numberBehind (10 * n + d) cs := by
        simp [numberBehind, hc]
      have hd : isDigit c = true := hdigit.symm
      simp only [hbehind, hd, true_and]
      split
      · rename_i hover
        have hle := le_numberBehind (10 * n + d) cs
        refine iff_of_false (fun h => by cases h) ?_
        rintro ⟨-, rfl, hm⟩
        omega
      · rename_i hover
        exact ih (Nat.not_lt.1 hover)

/-- Digits do not begin with a sign. -/
theorem unsignable_isCount : Unsignable IsCount := by
  rintro negative cs k ⟨hdigits, -⟩ c hc r rfl
  have hdigit := hdigits.2 c List.mem_cons_self
  rcases hc with rfl | rfl <;> cases hdigit

/-! ### Whole numbers -/

/-- Digits read under a limit, and brought under a sign that makes the limit that of the range. -/
theorem map_readDigits_eq_ok_iff {limit : Nat} {overflow : IntFault} {f : Int → Int}
    (hf : ∀ k : Nat, k ≤ limit ↔ InRange (f k)) {cs : List Char} {n : Int64} :
    (do let k ← readDigits limit overflow 0 cs; pure (k : Int) : Except IntFault Int).map
        (fun k => Int64.ofInt (f k)) = .ok n ↔
      (∀ c ∈ cs, isDigit c = true) ∧ n.toInt = f (digitsValue cs) := by
  have hread (m : Nat) : readDigits limit overflow 0 cs = .ok m ↔
      (∀ c ∈ cs, isDigit c = true) ∧ numberBehind 0 cs = m ∧ m ≤ limit :=
    readDigits_eq_ok_iff (Nat.zero_le limit)
  constructor
  · intro h
    cases hdigits : readDigits limit overflow 0 cs with
    | error e =>
      rw [hdigits] at h
      cases h
    | ok m =>
      rw [hdigits] at h
      obtain ⟨hall, hvalue, hm⟩ := (hread m).1 hdigits
      obtain ⟨hlo, hhi⟩ := (hf m).1 hm
      cases h
      rw [Int64.toInt_ofInt_of_le hlo (Int.lt_of_le_of_lt hhi (by decide))]
      exact ⟨hall, congrArg (fun k : Nat => f k) hvalue.symm⟩
  · rintro ⟨hall, hn⟩
    have hfits : digitsValue cs ≤ limit :=
      (hf _).2 (hn ▸ ⟨n.minValue_le_toInt, n.toInt_le⟩)
    rw [(hread _).2 ⟨hall, rfl, hfits⟩]
    show Except.ok (Int64.ofInt (f (digitsValue cs))) = _
    rw [← hn, Int64.ofInt_toInt]

theorem le_minus_iff_inRange (k : Nat) : k ≤ Nat.pow 2 63 ↔ InRange (-(k : Int)) := by
  have hmin : Int64.minValue.toInt = -(Nat.pow 2 63 : Nat) := by decide
  have hmax : 0 ≤ Int64.maxValue.toInt := by decide
  unfold InRange
  omega

theorem le_plus_iff_inRange (k : Nat) : k ≤ Nat.pow 2 63 - 1 ↔ InRange (k : Int) := by
  have hmin : Int64.minValue.toInt ≤ 0 := by decide
  have hmax : Int64.maxValue.toInt = (Nat.pow 2 63 - 1 : Nat) := by decide
  unfold InRange
  omega

/-- **A text is read as a whole number of 64 bits** exactly if it is a numeral for it. -/
theorem readInt64_eq_ok_iff {cs : List Char} {n : Int64} :
    readInt64 cs = .ok n ↔ IsNumeral cs n.toInt := by
  have hempty {ds : List Char} (h : ds ≠ []) : AreDigits ds ↔ ∀ c ∈ ds, isDigit c = true :=
    and_iff_right h
  unfold readInt64 IsNumeral
  split
  · rw [signed_plain_iff (fun r h => by cases h) (fun r h => by cases h)]
    exact iff_of_false (by rintro ⟨⟩) fun h => h.1.1 rfl
  · rw [signed_plus_iff unsignable_isCount]
    exact iff_of_false (by rintro ⟨⟩) fun h => h.1.1 rfl
  · rw [signed_minus_iff unsignable_isCount]
    exact iff_of_false (by rintro ⟨⟩) fun h => h.1.1 rfl
  · rename_i ds hds
    rw [signed_minus_iff unsignable_isCount, IsCount, hempty fun h => hds (by rw [h])]
    exact map_readDigits_eq_ok_iff (f := fun k => -k) le_minus_iff_inRange
  · rename_i ds hds
    rw [signed_plus_iff unsignable_isCount, IsCount, hempty fun h => hds (by rw [h])]
    exact map_readDigits_eq_ok_iff (f := fun k => k) le_plus_iff_inRange
  · rename_i hnil _ _ hminus hplus
    rw [signed_plain_iff (fun r h => hminus r h) (fun r h => hplus r h), IsCount, hempty hnil]
    exact map_readDigits_eq_ok_iff (f := fun k => k) le_plus_iff_inRange

/-! ### Decimals -/

/-- A test for digits says whether there is one and nothing else. -/
theorem areDigits_iff {ds : List Char} :
    AreDigits ds ↔ (ds.isEmpty || !ds.all isDigit) = false := by
  simp [AreDigits, List.isEmpty_eq_false_iff]

/-- Digits are read as an exponent under a sign. -/
theorem ite_areDigits_eq_some_iff {ds : List Char} {j k : Int} :
    (if ds.isEmpty || !ds.all isDigit then none else some j) = some k ↔ AreDigits ds ∧ k = j := by
  rw [areDigits_iff]
  split
  · rename_i h
    simp [h]
  · rename_i h
    simp [h, eq_comm]

/-- **A text is read as an exponent** exactly if it is one. -/
theorem readExponent?_eq_some_iff {cs : List Char} {k : Int} :
    readExponent? cs = some k ↔ IsExponent cs k := by
  unfold readExponent?
  split
  · constructor
    · rintro ⟨⟩
      exact .none
    · rintro ⟨⟩
      rfl
  · rename_i c rest
    have hletter : IsExponent (c :: rest) k ↔ (c = 'e' ∨ c = 'E') ∧ IsNumeral rest k :=
      ⟨fun | .some he h => ⟨he, h⟩, fun ⟨he, h⟩ => .some he h⟩
    rw [hletter]
    split
    · rename_i he
      rw [and_iff_right he]
      split
      rename_i hsign
      unfold IsNumeral
      split at hsign
      · cases hsign
        rw [signed_minus_iff unsignable_isCount]
        exact ite_areDigits_eq_some_iff
      · cases hsign
        rw [signed_plus_iff unsignable_isCount]
        exact ite_areDigits_eq_some_iff
      · rename_i hminus hplus
        cases hsign
        rw [signed_plain_iff hminus hplus]
        exact ite_areDigits_eq_some_iff
    · rename_i he
      simp [he]

/-- Digits in front of anything else are taken. -/
theorem takeWhile_isDigit_append {ds rest : List Char} (hds : ∀ c ∈ ds, isDigit c = true)
    (hrest : rest.takeWhile isDigit = []) : (ds ++ rest).takeWhile isDigit = ds := by
  rw [List.takeWhile_append_of_pos hds, hrest, List.append_nil]

theorem dropWhile_isDigit_append {ds rest : List Char} (hds : ∀ c ∈ ds, isDigit c = true)
    (hrest : rest.takeWhile isDigit = []) : (ds ++ rest).dropWhile isDigit = rest := by
  have hsplit := List.takeWhile_append_dropWhile (p := isDigit) (l := ds ++ rest)
  rw [takeWhile_isDigit_append hds hrest] at hsplit
  exact List.append_cancel_left hsplit

theorem isDigit_of_mem_takeWhile (cs : List Char) : ∀ c ∈ cs.takeWhile isDigit, isDigit c = true :=
  fun _ => List.mem_takeWhile_imp

theorem takeWhile_dropWhile_isDigit (cs : List Char) :
    (cs.dropWhile isDigit).takeWhile isDigit = [] := by
  cases hrest : cs.dropWhile isDigit with
  | nil => rfl
  | cons c rest =>
    have hhead := List.head?_dropWhile_not isDigit cs
    rw [hrest] at hhead
    exact List.takeWhile_cons_of_neg (by simpa using hhead)

/-- An exponent does not begin with a digit, nor with a point. -/
theorem IsExponent.head {es : List Char} {k : Int} (h : IsExponent es k) :
    es.takeWhile isDigit = [] ∧ ∀ r, es ≠ '.' :: r := by
  cases h with
  | none => exact ⟨rfl, nofun⟩
  | some he _ =>
    rcases he with rfl | rfl
    · exact ⟨List.takeWhile_cons_of_neg (by decide), fun r h => by cases h⟩
    · exact ⟨List.takeWhile_cons_of_neg (by decide), fun r h => by cases h⟩

/-- What is read of digits with no point behind them. -/
theorem readDecimal?_whole {ws es : List Char} (hws : ∀ c ∈ ws, isDigit c = true)
    (hes : es.takeWhile isDigit = []) (hpoint : ∀ r, es ≠ '.' :: r) :
    readDecimal? (ws ++ es) =
      if ws.isEmpty then none
      else (readExponent? es).map fun k => ⟨digitsValue ws, k⟩ := by
  unfold readDecimal?
  rw [takeWhile_isDigit_append hws hes, dropWhile_isDigit_append hws hes]
  -- the branch for a point is ruled out by the hypothesis
  simp

/-- What is read of digits with a point. -/
theorem readDecimal?_pointed {ws fs es : List Char} (hws : ∀ c ∈ ws, isDigit c = true)
    (hfs : ∀ c ∈ fs, isDigit c = true) (hes : es.takeWhile isDigit = []) :
    readDecimal? (ws ++ '.' :: (fs ++ es)) =
      if (ws ++ fs).isEmpty then none
      else (readExponent? es).map fun k => ⟨digitsValue (ws ++ fs), k - fs.length⟩ := by
  have hpoint : ('.' :: (fs ++ es)).takeWhile isDigit = [] :=
    List.takeWhile_cons_of_neg (by decide)
  have hempty : (ws ++ fs).isEmpty = (ws.isEmpty && fs.isEmpty) := by
    cases ws <;> rfl
  unfold readDecimal?
  rw [takeWhile_isDigit_append hws hpoint, dropWhile_isDigit_append hws hpoint]
  simp only [takeWhile_isDigit_append hfs hes, dropWhile_isDigit_append hfs hes, hempty]

/-- **A text is read as a decimal** exactly if it is one. -/
theorem readDecimal?_eq_some_iff {cs : List Char} {d : Decimal} :
    readDecimal? cs = some d ↔ IsDecimal cs d := by
  constructor
  · -- every text is digits with a point behind them, or without one
    have hwhole := takeWhile_dropWhile_isDigit cs
    have hws := isDigit_of_mem_takeWhile cs
    rw [← List.takeWhile_append_dropWhile (p := isDigit) (l := cs)]
    generalize cs.takeWhile isDigit = ws at *
    generalize cs.dropWhile isDigit = behind at *
    by_cases hpoint : ∃ r, behind = '.' :: r
    · obtain ⟨r, rfl⟩ := hpoint
      have hes := takeWhile_dropWhile_isDigit r
      have hfs := isDigit_of_mem_takeWhile r
      rw [← List.takeWhile_append_dropWhile (p := isDigit) (l := r)]
      generalize r.takeWhile isDigit = fs at *
      generalize r.dropWhile isDigit = es at *
      rw [readDecimal?_pointed hws hfs hes]
      split
      · rintro ⟨⟩
      · rename_i hempty
        rw [Option.map_eq_some_iff]
        rintro ⟨k, hk, rfl⟩
        refine .pointed ⟨fun h => hempty (List.isEmpty_iff.2 h), ?_⟩
          (readExponent?_eq_some_iff.1 hk)
        exact List.forall_mem_append.2 ⟨hws, hfs⟩
    · rw [readDecimal?_whole hws hwhole fun r h => hpoint ⟨r, h⟩]
      split
      · rintro ⟨⟩
      · rename_i hempty
        rw [Option.map_eq_some_iff]
        rintro ⟨k, hk, rfl⟩
        exact .whole ⟨fun h => hempty (List.isEmpty_iff.2 h), hws⟩ (readExponent?_eq_some_iff.1 hk)
  · intro h
    cases h with
    | whole hws hes =>
      rw [readDecimal?_whole hws.2 hes.head.1 hes.head.2,
        if_neg fun h => hws.1 (List.isEmpty_iff.1 h), readExponent?_eq_some_iff.2 hes]
      rfl
    | pointed hdigits hes =>
      obtain ⟨hws, hfs⟩ := List.forall_mem_append.1 hdigits.2
      rw [readDecimal?_pointed hws hfs hes.head.1,
        if_neg fun h => hdigits.1 (List.isEmpty_iff.1 h), readExponent?_eq_some_iff.2 hes]
      rfl

/-! ### Doubles -/

/-- A decimal begins with a digit or with a point. -/
theorem IsDecimal.exists_head {cs : List Char} {d : Decimal} (h : IsDecimal cs d) :
    ∃ c r, cs = c :: r ∧ (isDigit c = true ∨ c = '.') := by
  cases h with
  | @whole ws es _ hws _ =>
    obtain ⟨c, r, rfl⟩ := List.exists_cons_of_ne_nil hws.1
    exact ⟨c, r ++ es, rfl, .inl (hws.2 c List.mem_cons_self)⟩
  | @pointed ws fs es _ h _ =>
    cases ws with
    | nil => exact ⟨'.', fs ++ es, rfl, .inr rfl⟩
    | cons c ws => exact ⟨c, ws ++ '.' :: (fs ++ es), rfl, .inl (h.2 c List.mem_cons_self)⟩

/-- Digits have no small letters. -/
theorem toLower_of_isDigit {c : Char} (h : isDigit c = true) : c.toLower = c := by
  simp only [isDigit, Bool.and_eq_true, decide_eq_true_eq, Char.le_def] at h
  rw [Char.toLower, dif_neg]
  rintro ⟨hle, -⟩
  have hnine : '9'.val < 'A'.val := by decide
  exact UInt32.not_lt.2 hle (UInt32.lt_of_le_of_lt h.2 hnine)

/-- A decimal is none of the words. -/
theorem IsDecimal.map_toLower_ne {cs : List Char} {d : Decimal} (h : IsDecimal cs d) {c : Char}
    (hc : isDigit c = false) (hpoint : c ≠ '.') (word : List Char) :
    cs.map Char.toLower ≠ c :: word := by
  obtain ⟨b, r, rfl, hb⟩ := h.exists_head
  have hlower : b.toLower = b := by
    rcases hb with hb | rfl
    · exact toLower_of_isDigit hb
    · rfl
  rw [List.map_cons, hlower]
  intro hequal
  obtain rfl : b = c := (List.cons.inj hequal).1
  rcases hb with hb | hb
  · exact absurd (hb.symm.trans hc) (by decide)
  · exact hpoint hb

/-- Nothing that stands behind a sign begins with one. -/
theorem unsignable_isMagnitude : Unsignable IsMagnitude := by
  rintro negative cs x h c hc r rfl
  cases h with
  | infinity h =>
    rcases hc with rfl | rfl <;> rcases h with h | h <;>
      exact absurd (List.cons.inj h).1 (by decide)
  | nan h => rcases hc with rfl | rfl <;> exact absurd (List.cons.inj h).1 (by decide)
  | decimal h =>
    obtain ⟨b, r, hb, hhead⟩ := h.exists_head
    obtain rfl := (List.cons.inj hb).1
    rcases hc with rfl | rfl <;> revert hhead <;> decide

/-- What is read behind a sign. -/
theorem readMagnitude_eq_ok_iff {negative : Bool} {cs : List Char} {x : Binary64} :
    (if cs.map Char.toLower = "inf".toList ∨ cs.map Char.toLower = "infinity".toList then
        .ok (.infinity negative)
      else if cs.map Char.toLower = "nan".toList then .ok .nan
      else match readDecimal? cs with
        | some d => .ok (.ofDecimal negative d)
        | none => .error .invalid : Except FloatFault Binary64) = .ok x ↔
      IsMagnitude negative cs x := by
  constructor
  · split
    · rename_i h
      rintro ⟨⟩
      exact .infinity h
    · split
      · rename_i h
        rintro ⟨⟩
        exact .nan h
      · split
        · rename_i h
          rintro ⟨⟩
          exact .decimal (readDecimal?_eq_some_iff.1 h)
        · rintro ⟨⟩
  · intro h
    cases h with
    | infinity h => rw [if_pos h]
    | nan h =>
      rw [if_neg, if_pos h]
      rw [h]
      decide
    | decimal h =>
      have hword {c : Char} {word : List Char} (hc : isDigit c = false) (hpoint : c ≠ '.') :=
        h.map_toLower_ne hc hpoint word
      rw [if_neg, if_neg, readDecimal?_eq_some_iff.2 h]
      · exact hword (c := 'n') (by decide) (by decide)
      · rintro (hinf | hinf)
        · exact hword (c := 'i') (by decide) (by decide) hinf
        · exact hword (c := 'i') (by decide) (by decide) hinf

/-- **A text is read as a double** exactly if it is a real that is this double. -/
theorem readFloat_eq_ok_iff {cs : List Char} {x : Binary64} :
    readFloat cs = .ok x ↔ IsReal cs x := by
  unfold IsReal
  cases cs with
  | nil =>
    rw [signed_plain_iff (fun r h => by cases h) (fun r h => by cases h),
      ← readMagnitude_eq_ok_iff]
    exact iff_of_false (fun h => by cases h) (fun h => by cases h)
  | cons c cs =>
    unfold readFloat
    split
    rename_i hsign
    rw [if_neg (Bool.not_eq_true _ ▸ List.isEmpty_cons)]
    split at hsign
    · rename_i hcs
      cases hsign
      cases hcs
      rw [signed_minus_iff unsignable_isMagnitude]
      exact readMagnitude_eq_ok_iff
    · rename_i hcs
      cases hsign
      cases hcs
      rw [signed_plus_iff unsignable_isMagnitude]
      exact readMagnitude_eq_ok_iff
    · rename_i hminus hplus
      cases hsign
      rw [signed_plain_iff (fun r h => hminus r h) (fun r h => hplus r h)]
      exact readMagnitude_eq_ok_iff

end Telemetry
