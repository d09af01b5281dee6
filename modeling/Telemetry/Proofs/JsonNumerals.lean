import Mathlib
import Telemetry.Proofs.JsonNumber

/-!
# Numerals

Every number that the grammar of JSON allows is read, however long it is, up to where it ends. It
is either found to be a number or reported as out of range, and which of the two does not depend on
what stands behind it. So the double that a numeral stands for can be told from its own octets
alone, and whether it writes a whole number of 64 bits can be told from its digits.

Where a significand is full the reader drops the digits that are left, and where an exponent leaves
32 bits it does so as well. In both cases the digits that are left still end where the grammar says
that the digits end.

* `Numeral`, `Numeral.chars`: a number as the grammar has it;
* `Numeral.int64?`, `Numeral.double?`: the whole number of 64 bits, and the double;
* `Settles`: a number found, or out of range;
* `exists_readNumber_real`: what is read of a numeral that is no whole number of 64 bits;
* `readInteger_finds`, `readReal_settles`: the two ways of asking for a number;
* `Numeral.double?_eq_none_iff`: no double is found exactly if one is reported as out of range.
-/

namespace Telemetry.Json

/-! ### The grammar of numbers -/

/-- Digits, at least one. -/
structure Digits where
  /-- The digits in order. -/
  list : List Nat
  /-- There is one. -/
  ne_nil : list ≠ []
  /-- They are decimal. -/
  lt_ten : ∀ d ∈ list, d < 10
deriving DecidableEq

/-- The characters of digits. -/
def Digits.chars (ds : Digits) : List Char := ds.list.map Nat.digitChar

/-- An exponent. -/
structure Exponent where
  /-- Is its letter a capital? -/
  capital : Bool
  /-- Its sign if there is one, and whether that is a plus. -/
  sign : Option Bool
  /-- Its digits. Zeros in front are allowed. -/
  digits : Digits
deriving DecidableEq

/-- The character of a sign, if there is one. -/
def signChars : Option Bool → List Char
  | some true => ['+']
  | some false => ['-']
  | none => []

/-- Does an exponent count upward? -/
def Exponent.up (e : Exponent) : Bool := e.sign != some false

/-- The characters of an exponent. -/
def Exponent.chars (e : Exponent) : List Char :=
  (if e.capital then 'E' else 'e') :: (signChars e.sign ++ e.digits.chars)

/-- A number as it is written. -/
structure Numeral where
  /-- Is there a minus sign? -/
  negative : Bool
  /-- The digits of the whole part. -/
  whole : Digits
  /-- The digits behind the point, if there is one. -/
  fraction : Option Digits
  /-- The exponent, if there is one. -/
  exponent : Option Exponent
  /-- A zero in front stands alone. -/
  head_zero : whole.list.head? = some 0 → whole.list = [0]
deriving DecidableEq

/-- The characters behind the whole part. -/
def tailChars (fraction : Option Digits) (exponent : Option Exponent) : List Char :=
  (match fraction with
    | some fs => '.' :: fs.chars
    | none => []) ++ (exponent.map Exponent.chars).getD []

/-- The characters behind the sign. -/
def Numeral.unsignedChars (n : Numeral) : List Char :=
  n.whole.chars ++ tailChars n.fraction n.exponent

/-- The characters of a number. -/
def Numeral.chars (n : Numeral) : List Char :=
  (if n.negative then ['-'] else []) ++ n.unsignedChars

/-- The number that the whole part writes. -/
def Numeral.magnitude (n : Numeral) : Nat := digitsBehind 0 n.whole.list

/-- The whole part with its sign. -/
def Numeral.signed (n : Numeral) : Int := if n.negative then -n.magnitude else n.magnitude

/-- **The whole number of 64 bits** that a numeral writes. It must have neither a point nor an
exponent, and it must not be negative zero. -/
def Numeral.int64? (n : Numeral) : Option Int64 :=
  if n.fraction = none ∧ n.exponent = none ∧ ¬(n.negative = true ∧ n.magnitude = 0) ∧
      -(2 ^ 63 : Int) ≤ n.signed ∧ n.signed < 2 ^ 63 then
    some (Int64.ofInt n.signed)
  else none

/-- **The double** that the reader finds in the octets of a numeral. -/
def Numeral.double? (n : Numeral) : Option Binary64 :=
  (readReal (octetsOfChars n.chars)).toOption.map Prod.fst

/-- A numeral that is reported as out of range. -/
def Numeral.OutOfRange (n : Numeral) : Prop :=
  ∃ beyond, readReal (octetsOfChars n.chars) = .error ⟨.numberOutOfRange, beyond⟩

/-! ### Found, or out of range -/

/-- What is found in front of `rest` is `o`, and if that is nothing, a number is out of range. -/
def Settles {α : Type} (o : Option α) (rest : Octets) (r : Except Stop (α × Octets)) : Prop :=
  match o with
  | some a => r = .ok (a, rest)
  | none => ∃ beyond, r = .error ⟨.numberOutOfRange, beyond⟩

theorem Settles.map {α β : Type} {o : Option α} {rest : Octets} {r : Except Stop (α × Octets)}
    (h : Settles o rest r) (f : α → β) :
    Settles (o.map f) rest (r.map fun p => (f p.1, p.2)) := by
  cases o with
  | none =>
    obtain ⟨beyond, rfl⟩ := h
    exact ⟨beyond, rfl⟩
  | some a =>
    rw [show r = .ok (a, rest) from h]
    rfl

/-- What is found in front of `rest` is `o`, and if that is nothing, there is a fault. -/
def Finds {α : Type} (o : Option α) (rest : Octets) (r : Except Stop (α × Octets)) : Prop :=
  match o with
  | some a => r = .ok (a, rest)
  | none => ∃ e, r = .error e

theorem Finds.map {α β : Type} {o : Option α} {rest : Octets} {r : Except Stop (α × Octets)}
    (h : Finds o rest r) (f : α → β) :
    Finds (o.map f) rest (r.map fun p => (f p.1, p.2)) := by
  cases o with
  | none =>
    obtain ⟨e, rfl⟩ := h
    exact ⟨e, rfl⟩
  | some a =>
    rw [show r = .ok (a, rest) from h]
    rfl

theorem Settles.finds {α : Type} {o : Option α} {rest : Octets} {r : Except Stop (α × Octets)}
    (h : Settles o rest r) : Finds o rest r := by
  cases o with
  | none =>
    obtain ⟨beyond, h⟩ := h
    exact ⟨_, h⟩
  | some a => exact h

/-- What is found is what there is. -/
theorem Settles.toOption_eq {α : Type} {o : Option α} {rest : Octets}
    {r : Except Stop (α × Octets)} (h : Settles o rest r) : r.toOption.map Prod.fst = o := by
  cases o with
  | none =>
    obtain ⟨beyond, rfl⟩ := h
    rfl
  | some a =>
    rw [show r = .ok (a, rest) from h]
    rfl

/-- Whether a significand can be worked out does not depend on what follows. -/
theorem exists_scaled_settles (positive : Bool) (m : Nat) (power : Int) :
    ∃ o, ∀ rest, Settles o rest (scaled positive m power rest) := by
  unfold scaled
  split
  · exact ⟨some _, fun rest => rfl⟩
  · split
    · exact ⟨some _, fun rest => rfl⟩
    · split
      · exact ⟨none, fun rest => ⟨_, rfl⟩⟩
      · simp only
        split
        · exact ⟨none, fun rest => ⟨_, rfl⟩⟩
        · exact ⟨some _, fun rest => rfl⟩

/-! ### More digits than fit -/

theorem isOctetDigit_digitChar : ∀ d < 10, isOctetDigit (ascii (Nat.digitChar d)) = true := by
  decide

/-- Digits are dropped up to where they end. -/
theorem dropDigits_digits {tail : Octets} (htail : startsWithDigit tail = false) {ds : List Nat}
    (hds : ∀ x ∈ ds, x < 10) :
    (octetsOfChars (ds.map Nat.digitChar) ++ tail).dropWhile isOctetDigit = tail := by
  induction ds with
  | nil =>
    cases tail with
    | nil => rfl
    | cons b tail => exact List.dropWhile_cons_of_neg (by rw [← startsWithDigit, htail]; decide)
  | cons d ds ih =>
    have hd : d < 10 := hds d List.mem_cons_self
    rw [List.map_cons, octetsOfChars_digits hd, List.cons_append,
      List.dropWhile_cons_of_pos (isOctetDigit_digitChar d hd)]
    exact ih fun x hx => hds x (List.mem_cons_of_mem d hx)

/-- And so many of them are dropped. -/
theorem takeDigits_digits {tail : Octets} (htail : startsWithDigit tail = false) {ds : List Nat}
    (hds : ∀ x ∈ ds, x < 10) :
    (octetsOfChars (ds.map Nat.digitChar) ++ tail).takeWhile isOctetDigit =
      octetsOfChars (ds.map Nat.digitChar) := by
  have h := List.takeWhile_append_dropWhile (p := isOctetDigit)
    (l := octetsOfChars (ds.map Nat.digitChar) ++ tail)
  rw [dropDigits_digits htail hds] at h
  exact List.append_cancel_right h

/-- **Digits that 64 bits do not hold** leave some behind, the same whatever follows. -/
theorem exists_gatherDigits_left {ds : List Nat} (hds : ∀ x ∈ ds, x < 10) {m : Nat}
    (hm : m < Nat.pow 2 64) (taken : Nat) (hfull : Nat.pow 2 64 ≤ digitsBehind m ds) :
    ∃ n k d left, n < Nat.pow 2 64 ∧ d < 10 ∧ (∀ x ∈ left, x < 10) ∧ ∀ tail,
      gatherDigits m taken (octetsOfChars (ds.map Nat.digitChar) ++ tail) =
        (n, k, octetsOfChars ((d :: left).map Nat.digitChar) ++ tail) := by
  induction ds generalizing m taken with
  | nil => exact absurd hm (Nat.not_lt.2 hfull)
  | cons d ds ih =>
    have hd : d < 10 := hds d List.mem_cons_self
    have hds' : ∀ x ∈ ds, x < 10 := fun x hx => hds x (List.mem_cons_of_mem d hx)
    by_cases hstep : 10 * m + d < Nat.pow 2 64
    · obtain ⟨n, k, e, left, hn, he, hleft, hread⟩ := ih hds' hstep (taken + 1) hfull
      refine ⟨n, k, e, left, hn, he, hleft, fun tail => ?_⟩
      rw [List.map_cons, octetsOfChars_digits hd, List.cons_append, gatherDigits,
        octetDigit?_digitChar d hd]
      simp only
      rw [if_pos hstep]
      exact hread tail
    · refine ⟨m, taken, d, ds, hm, hd, hds', fun tail => ?_⟩
      rw [List.map_cons, octetsOfChars_digits hd, List.cons_append, gatherDigits,
        octetDigit?_digitChar d hd]
      simp only
      rw [if_neg hstep]

/-- The digits of an exponent are taken, or from some digit on they are left. -/
theorem exists_gatherExponent {ds : List Nat} (hds : ∀ x ∈ ds, x < 10) (e : Nat) :
    (∃ f, ∀ tail, startsWithDigit tail = false →
      gatherExponent e (octetsOfChars (ds.map Nat.digitChar) ++ tail) = (some f, tail)) ∨
    ∃ left : List Nat, (∀ x ∈ left, x < 10) ∧ ∀ tail,
      gatherExponent e (octetsOfChars (ds.map Nat.digitChar) ++ tail) =
        (none, octetsOfChars (left.map Nat.digitChar) ++ tail) := by
  induction ds generalizing e with
  | nil =>
    refine .inl ⟨e, fun tail htail => ?_⟩
    cases ht : tail with
    | nil => rfl
    | cons b behind =>
      show gatherExponent e (b :: behind) = _
      rw [gatherExponent, octetDigit?_head htail ht]
  | cons d ds ih =>
    have hd : d < 10 := hds d List.mem_cons_self
    have hds' : ∀ x ∈ ds, x < 10 := fun x hx => hds x (List.mem_cons_of_mem d hx)
    have hstep : ∀ tail, gatherExponent e (octetsOfChars ((d :: ds).map Nat.digitChar) ++ tail) =
        if 10 * e + d < Nat.pow 2 31 then
          gatherExponent (10 * e + d) (octetsOfChars (ds.map Nat.digitChar) ++ tail)
        else (none, octetsOfChars (ds.map Nat.digitChar) ++ tail) := by
      intro tail
      rw [List.map_cons, octetsOfChars_digits hd, List.cons_append, gatherExponent,
        octetDigit?_digitChar d hd]
    by_cases hlt : 10 * e + d < Nat.pow 2 31
    · simp only [hstep, if_pos hlt]
      exact ih hds' _
    · simp only [hstep, if_neg hlt]
      exact .inr ⟨ds, hds', fun tail => rfl⟩

/-! ### Behind the whole part -/

/-- An exponent, or nothing, does not begin with a digit. -/
theorem startsWithDigit_exponent (exponent : Option Exponent) {rest : Octets} (hrest : Stops rest) :
    startsWithDigit (octetsOfChars ((exponent.map Exponent.chars).getD []) ++ rest) = false := by
  rcases exponent with _ | ⟨_ | _, sign, ds⟩
  · exact hrest.1
  · rfl
  · rfl

/-- Nor does a fraction. -/
theorem startsWithDigit_tail (fraction : Option Digits) (exponent : Option Exponent)
    {rest : Octets} (hrest : Stops rest) :
    startsWithDigit (octetsOfChars (tailChars fraction exponent) ++ rest) = false := by
  cases fraction with
  | none => exact startsWithDigit_exponent exponent hrest
  | some fs => rfl

/-- A fraction and an exponent go on with a number. -/
theorem startsTail_tailChars {fraction : Option Digits} {exponent : Option Exponent}
    (h : fraction ≠ none ∨ exponent ≠ none) (rest : Octets) :
    startsTail (octetsOfChars (tailChars fraction exponent) ++ rest) = true := by
  rcases fraction with _ | fs
  · rcases exponent with _ | ⟨_ | _, sign, ds⟩
    · rcases h with h | h <;> exact absurd rfl h
    · rfl
    · rfl
  · rfl

section

variable (positive : Bool) (m : Nat) (power : Int)

/-- Digits are an exponent by the first of them and by what is gathered of the others. -/
theorem readExponent_cons (up : Bool) {d : Nat} (hd : d < 10) (ds : List Nat) (rest : Octets) :
    readExponent positive m power up
        (octetsOfChars ((d :: ds).map Nat.digitChar) ++ rest) =
      match gatherExponent d (octetsOfChars (ds.map Nat.digitChar) ++ rest) with
        | (some e, rest) =>
          scaled positive m (clampPower (if up then power + e else power - e)) rest
        | (none, rest) =>
          if m ≠ 0 ∧ up = true then stopAt .numberOutOfRange rest
          else .ok (withSign positive .zero, rest.dropWhile isOctetDigit) := by
  rewrite [List.map_cons, octetsOfChars_digits hd, List.cons_append, readExponent,
    octetDigit?_digitChar d hd]
  rfl

/-- Nothing but a letter begins an exponent. -/
theorem readScaled_of_stops {rest : Octets} (hrest : Stops rest) :
    readScaled positive m power rest = scaled positive m power rest := by
  cases rest with
  | nil => rfl
  | cons b rest =>
    have hb : ¬(b = ascii 'e' ∨ b = ascii 'E') := by
      rintro (rfl | rfl) <;> cases hrest.2
    rw [readScaled, if_neg hb]

/-- The sign of an exponent tells which way it counts. -/
theorem readScaled_exponent (e : Exponent) (rest : Octets) :
    readScaled positive m power (octetsOfChars e.chars ++ rest) =
      readExponent positive m power e.up
        (octetsOfChars e.digits.chars ++ rest) := by
  obtain ⟨capital, sign, ds⟩ := e
  -- the letter is one octet, whichever it is
  have hletter : octetsOfChars (Exponent.chars ⟨capital, sign, ds⟩) ++ rest =
      ascii (if capital then 'E' else 'e') ::
        (octetsOfChars (signChars sign ++ ds.chars) ++ rest) := by
    cases capital <;> rfl
  have hpower : ascii (if capital then 'E' else 'e') = ascii 'e' ∨
      ascii (if capital then 'E' else 'e') = ascii 'E' := by
    cases capital
    · exact .inl rfl
    · exact .inr rfl
  rw [hletter, readScaled, if_pos hpower]
  match sign with
  | some true => rfl
  | some false => rfl
  | none =>
    obtain ⟨list, hne, hlt⟩ := ds
    cases list with
    | nil => exact absurd rfl hne
    | cons d list =>
      have hd : d < 10 := hlt d List.mem_cons_self
      have hsign : ∀ d < 10, ascii (Nat.digitChar d) ≠ ascii '+' ∧
          ascii (Nat.digitChar d) ≠ ascii '-' := by decide
      simp only [signChars, List.nil_append, Digits.chars]
      rw [List.map_cons, octetsOfChars_digits hd, List.cons_append, readPower,
        if_neg (hsign d hd).1, if_neg (hsign d hd).2]
      rfl

/-- The digits behind a point that fit go on with the significand and lower the power. -/
theorem readFraction_digits (fs : Digits) (hlt : digitsBehind m fs.list < Nat.pow 2 64)
    {tail : Octets} (htail : startsWithDigit tail = false) :
    readFraction positive m power (octetsOfChars fs.chars ++ tail) =
      readScaled positive (digitsBehind m fs.list) (power - fs.list.length) tail := by
  have hlength : 0 + fs.list.length ≠ 0 := by
    rw [Nat.zero_add]
    exact fun h => fs.ne_nil (List.length_eq_zero_iff.1 h)
  rw [readFraction, Digits.chars, gatherDigits_digits htail fs.lt_ten m 0 hlt]
  simp only
  rw [htail, if_neg (by decide), if_neg hlength, Nat.zero_add]

/-- Without a point the tail of a number is its exponent. -/
theorem readTail_none (exponent : Option Exponent) {rest : Octets} (hrest : Stops rest) :
    readTail positive m power (octetsOfChars (tailChars none exponent) ++ rest) =
      readScaled positive m power
        (octetsOfChars ((exponent.map Exponent.chars).getD []) ++ rest) := by
  -- neither an exponent nor what follows a number is a point
  have hpoint : ∀ b behind, octetsOfChars ((exponent.map Exponent.chars).getD []) ++ rest =
      b :: behind → b ≠ ascii '.' := by
    rintro b behind h rfl
    rcases exponent with _ | ⟨_ | _, sign, ds⟩
    · rw [show rest = ascii '.' :: behind from h] at hrest
      cases hrest.2
    · cases h
    · cases h
  show readTail positive m power
    (octetsOfChars ((exponent.map Exponent.chars).getD []) ++ rest) = _
  generalize octetsOfChars ((exponent.map Exponent.chars).getD []) ++ rest = text at *
  cases text with
  | nil => rfl
  | cons b behind => rw [readTail, if_neg (hpoint b behind rfl)]

/-- With one it is a fraction and an exponent. -/
theorem readTail_some (fs : Digits) (exponent : Option Exponent) (rest : Octets) :
    readTail positive m power (octetsOfChars (tailChars (some fs) exponent) ++ rest) =
      readFraction positive m power (octetsOfChars fs.chars ++
        (octetsOfChars ((exponent.map Exponent.chars).getD []) ++ rest)) := by
  rw [tailChars, octetsOfChars_append, List.append_assoc]
  rfl

theorem exists_readScaled (exponent : Option Exponent) :
    ∃ o, ∀ rest, Stops rest → Settles o rest (readScaled positive m power
      (octetsOfChars ((exponent.map Exponent.chars).getD []) ++ rest)) := by
  cases exponent with
  | none =>
    obtain ⟨o, ho⟩ := exists_scaled_settles positive m power
    refine ⟨o, fun rest hrest => ?_⟩
    show Settles o rest (readScaled positive m power rest)
    rw [readScaled_of_stops positive m power hrest]
    exact ho rest
  | some e =>
    obtain ⟨capital, sign, list, hne, hlt⟩ := e
    cases list with
    | nil => exact absurd rfl hne
    | cons d list =>
      have hd : d < 10 := hlt d List.mem_cons_self
      simp only [Option.map_some, Option.getD_some, readScaled_exponent, Digits.chars,
        readExponent_cons positive m power _ hd]
      generalize Exponent.up _ = up
      rcases exists_gatherExponent (fun x hx => hlt x (List.mem_cons_of_mem d hx)) d with
        ⟨e, htaken⟩ | ⟨left, hleft, htaken⟩
      · obtain ⟨o, ho⟩ := exists_scaled_settles positive m
          (clampPower (if up then power + e else power - e))
        refine ⟨o, fun rest hrest => ?_⟩
        rw [htaken rest hrest.1]
        exact ho rest
      · simp only [htaken]
        split
        · exact ⟨none, fun rest _ => ⟨_, rfl⟩⟩
        · refine ⟨some (withSign positive .zero), fun rest hrest => ?_⟩
          rw [dropDigits_digits hrest.1 hleft]
          rfl

/-- **What stands behind the whole part** is read up to its end. -/
theorem exists_readTail (hm : m < Nat.pow 2 64) (fraction : Option Digits)
    (exponent : Option Exponent) :
    ∃ o, ∀ rest, Stops rest → Settles o rest (readTail positive m power
      (octetsOfChars (tailChars fraction exponent) ++ rest)) := by
  cases fraction with
  | none =>
    obtain ⟨o, ho⟩ := exists_readScaled positive m power exponent
    refine ⟨o, fun rest hrest => ?_⟩
    rw [readTail_none positive m power exponent hrest]
    exact ho rest hrest
  | some fs =>
    by_cases hlt : digitsBehind m fs.list < Nat.pow 2 64
    · obtain ⟨o, ho⟩ := exists_readScaled positive (digitsBehind m fs.list)
        (power - fs.list.length) exponent
      refine ⟨o, fun rest hrest => ?_⟩
      rw [readTail_some, readFraction_digits positive m power fs hlt
        (startsWithDigit_exponent exponent hrest)]
      exact ho rest hrest
    · obtain ⟨n, k, d, left, -, hd, hleft, hread⟩ :=
        exists_gatherDigits_left fs.lt_ten hm 0 (Nat.not_lt.1 hlt)
      obtain ⟨o, ho⟩ := exists_readScaled positive n (power - k) exponent
      refine ⟨o, fun rest hrest => ?_⟩
      have hbehind := startsWithDigit_exponent exponent hrest
      rw [readTail_some, readFraction, Digits.chars, hread]
      simp only
      rw [dropDigits_digits hbehind (List.forall_mem_cons.2 ⟨hd, hleft⟩), List.map_cons,
        octetsOfChars_digits hd, List.cons_append, startsWithDigit, isOctetDigit_digitChar d hd,
        if_pos rfl]
      exact ho rest hrest

end

/-! ### Numerals behind their sign -/

/-- The whole part is a zero, or it begins with another digit. -/
theorem Numeral.whole_cases (n : Numeral) :
    n.whole.list = [0] ∨ ∃ d ds, 0 < d ∧ d < 10 ∧ (∀ x ∈ ds, x < 10) ∧ n.whole.list = d :: ds := by
  have hhead := n.head_zero
  have hlt := n.whole.lt_ten
  cases hlist : n.whole.list with
  | nil => exact absurd hlist n.whole.ne_nil
  | cons d ds =>
    rw [hlist] at hhead hlt
    rcases Nat.eq_zero_or_pos d with rfl | hpos
    · exact .inl (hhead rfl)
    · exact .inr ⟨d, ds, hpos, hlt d List.mem_cons_self,
        fun x hx => hlt x (List.mem_cons_of_mem d hx), rfl⟩

/-- A whole part that 64 bits hold is read as the number that it writes. -/
theorem Numeral.readNumber_whole (n : Numeral) (positive : Bool)
    (hlt : n.magnitude < Nat.pow 2 64) {tail : Octets} (htail : startsWithDigit tail = false) :
    readNumber positive (octetsOfChars n.whole.chars ++ tail) =
      readWhole positive n.magnitude tail := by
  rw [Numeral.magnitude] at hlt ⊢
  rcases n.whole_cases with hzero | ⟨d, ds, hd0, hd, hds, hlist⟩
  · have hfits : 0 < Nat.pow 2 64 := by decide
    rw [Digits.chars, hzero]
    exact readNumber_digits htail positive hfits
  · have hself : digitsBehind 0 (d :: ds) = digitsBehind d ds := by
      simp [digitsBehind]
    rw [hlist, hself] at hlt
    rw [Digits.chars, hlist, hself]
    exact readNumber_cons htail positive hd0 hd hds hlt

/-- **A numeral that is no whole number of 64 bits** is read as a double, or is out of range. -/
theorem Numeral.exists_readNumber_real (n : Numeral) (positive : Bool)
    (h : n.fraction ≠ none ∨ n.exponent ≠ none ∨ Nat.pow 2 64 ≤ n.magnitude) :
    ∃ o : Option Binary64, ∀ rest, Stops rest → Settles (o.map .real) rest
      (readNumber positive (octetsOfChars n.unsignedChars ++ rest)) := by
  by_cases hlt : n.magnitude < Nat.pow 2 64
  · obtain ⟨o, ho⟩ := exists_readTail positive n.magnitude 0 hlt n.fraction n.exponent
    refine ⟨o, fun rest hrest => ?_⟩
    have htail : n.fraction ≠ none ∨ n.exponent ≠ none :=
      h.imp_right fun h => h.resolve_right (Nat.not_le.2 hlt)
    rw [unsignedChars, octetsOfChars_append, List.append_assoc,
      n.readNumber_whole positive hlt (startsWithDigit_tail _ _ hrest), readWhole,
      if_pos (startsTail_tailChars htail rest)]
    exact (ho rest hrest).map Num.real
  · rcases n.whole_cases with hzero | ⟨d, ds, hd0, hd, hds, hlist⟩
    · refine absurd ?_ hlt
      rw [magnitude, hzero]
      decide
    · have hself : digitsBehind 0 (d :: ds) = digitsBehind d ds := by
        simp [digitsBehind]
      rw [magnitude, hlist, hself] at hlt
      have hfits : d < Nat.pow 2 64 := hd.trans (by decide)
      obtain ⟨m, k, e, left, hm, he, hleft, hread⟩ :=
        exists_gatherDigits_left hds hfits 0 (Nat.not_lt.1 hlt)
      obtain ⟨o, ho⟩ := exists_readTail positive m
        ((octetsOfChars ((e :: left).map Nat.digitChar)).length : Int) hm n.fraction n.exponent
      refine ⟨o, fun rest hrest => ?_⟩
      have hbehind := startsWithDigit_tail n.fraction n.exponent hrest
      have hall : ∀ x ∈ e :: left, x < 10 := List.forall_mem_cons.2 ⟨he, hleft⟩
      have hstarts : ∀ tail, startsWithDigit
          (octetsOfChars ((e :: left).map Nat.digitChar) ++ tail) = true := by
        intro tail
        rw [List.map_cons, octetsOfChars_digits he, List.cons_append, startsWithDigit,
          isOctetDigit_digitChar e he]
      obtain ⟨f, rfl⟩ : ∃ f, d = f + 1 := ⟨d - 1, by omega⟩
      rw [unsignedChars, octetsOfChars_append, List.append_assoc, Digits.chars, hlist,
        List.map_cons, octetsOfChars_digits hd, List.cons_append, readNumber,
        octetDigit?_digitChar _ hd]
      simp only
      rw [hread]
      simp only
      rw [hstarts, if_pos rfl, takeDigits_digits hbehind hall, dropDigits_digits hbehind hall]
      exact (ho rest hrest).map Num.real

/-! ### The two ways of asking for a number -/

/-- A numeral begins with a minus sign or a digit, which decides how it is read. -/
theorem Numeral.readNum_append (n : Numeral) (expected : String) (rest : Octets) :
    readNum expected (octetsOfChars n.chars ++ rest) =
      readNumber (!n.negative) (octetsOfChars n.unsignedChars ++ rest) := by
  rw [chars]
  cases n.negative with
  | true =>
    show readNum expected (ascii '-' :: (octetsOfChars n.unsignedChars ++ rest)) = _
    rw [readNum, skipSpace_cons (by decide)]
    rfl
  | false =>
    show readNum expected (octetsOfChars n.unsignedChars ++ rest) = _
    obtain ⟨d, ds, hd, hlist⟩ : ∃ d ds, d < 10 ∧ n.whole.list = d :: ds := by
      rcases n.whole_cases with hzero | ⟨d, ds, -, hd, -, hlist⟩
      · exact ⟨0, [], by decide, hzero⟩
      · exact ⟨d, ds, hd, hlist⟩
    obtain ⟨hspace, hdigit, hminus, -⟩ := digit_head d hd
    rw [unsignedChars, octetsOfChars_append, List.append_assoc, Digits.chars, hlist,
      List.map_cons, octetsOfChars_digits hd, List.cons_append, readNum, skipSpace_cons hspace]
    simp only
    rw [if_neg hminus, if_pos hdigit]
    rfl

/-- What a number without point and exponent is read as. -/
def integral (positive : Bool) (m : Nat) : Num :=
  if positive then .natural m
  else if m = 0 then .real .negZero
  else if m ≤ Nat.pow 2 63 then .negative (-m)
  else .real (Binary64.ofNat m).neg

/-- A numeral is one of those, or it is read as a double or out of range. -/
theorem Numeral.readNumber_cases (n : Numeral) (positive : Bool) :
    (n.fraction = none ∧ n.exponent = none ∧ n.magnitude < Nat.pow 2 64 ∧
      ∀ rest, Stops rest → readNumber positive (octetsOfChars n.unsignedChars ++ rest) =
        .ok (integral positive n.magnitude, rest)) ∨
    (n.fraction ≠ none ∨ n.exponent ≠ none ∨ Nat.pow 2 64 ≤ n.magnitude) ∧
      ∃ o : Option Binary64, ∀ rest, Stops rest → Settles (o.map .real) rest
        (readNumber positive (octetsOfChars n.unsignedChars ++ rest)) := by
  by_cases h : n.fraction ≠ none ∨ n.exponent ≠ none ∨ Nat.pow 2 64 ≤ n.magnitude
  · exact .inr ⟨h, n.exists_readNumber_real positive h⟩
  · simp only [not_or, not_not, Nat.not_le] at h
    obtain ⟨hfraction, hexponent, hlt⟩ := h
    refine .inl ⟨hfraction, hexponent, hlt, fun rest hrest => ?_⟩
    have hchars : n.unsignedChars = n.whole.chars := by
      rw [unsignedChars, hfraction, hexponent]
      exact List.append_nil _
    rw [hchars, n.readNumber_whole positive hlt hrest.1, readWhole, hrest.2, integral]
    split_ifs <;> trivial

/-- What a numeral without point and exponent writes. -/
theorem Numeral.int64?_integral (n : Numeral) (hfraction : n.fraction = none)
    (hexponent : n.exponent = none) :
    n.int64? = if n.negative then
        if n.magnitude = 0 then none
        else if n.magnitude ≤ Nat.pow 2 63 then some (Int64.ofInt (-n.magnitude)) else none
      else if n.magnitude < Nat.pow 2 63 then some (Int64.ofNat n.magnitude) else none := by
  have hbits : Nat.pow 2 63 = 9223372036854775808 := rfl
  rw [int64?, signed, hfraction, hexponent]
  cases n.negative with
  | false =>
    simp only [true_and, Bool.false_eq_true, false_and, not_false_eq_true, if_false]
    by_cases hlt : n.magnitude < Nat.pow 2 63
    · rw [if_pos hlt, if_pos (by omega)]
      rfl
    · rw [if_neg hlt, if_neg (by omega)]
  | true =>
    simp only [true_and, if_true]
    by_cases hzero : n.magnitude = 0
    · rw [if_pos hzero, if_neg (fun h => h.1 hzero)]
    · rw [if_neg hzero]
      by_cases hle : n.magnitude ≤ Nat.pow 2 63
      · rw [if_pos hle, if_pos (by omega)]
      · rw [if_neg hle, if_neg (by omega)]

/-- **A whole number of 64 bits** is found exactly where a numeral writes one. -/
theorem Numeral.readInteger_finds (n : Numeral) {rest : Octets} (hrest : Stops rest) :
    Finds n.int64? rest (readInteger (octetsOfChars n.chars ++ rest)) := by
  rw [readInteger, n.readNum_append]
  rcases n.readNumber_cases (!n.negative) with
    ⟨hfraction, hexponent, hlt, hread⟩ | ⟨h, o, ho⟩
  · rw [hread rest hrest, n.int64?_integral hfraction hexponent, integral]
    cases n.negative with
    | false =>
      by_cases hbound : n.magnitude < Nat.pow 2 63
      · simp only [hbound, Bool.not_false, Bool.false_eq_true, if_false, if_true]
        exact if_pos hbound
      · simp only [hbound, Bool.not_false, Bool.false_eq_true, if_false, if_true]
        exact ⟨_, if_neg hbound⟩
    | true =>
      by_cases hzero : n.magnitude = 0
      · simp only [hzero, Bool.not_true, Bool.false_eq_true, if_false, if_true]
        exact ⟨_, rfl⟩
      · by_cases hle : n.magnitude ≤ Nat.pow 2 63
        · simp only [hzero, hle, Bool.not_true, Bool.false_eq_true, if_false, if_true]
          rfl
        · simp only [hzero, hle, Bool.not_true, Bool.false_eq_true, if_false, if_true]
          exact ⟨_, rfl⟩
  · have hnone : n.int64? = none := by
      refine if_neg ?_
      rintro ⟨hfraction, hexponent, -, hmin, hmax⟩
      rcases h with h | h | h
      · exact h hfraction
      · exact h hexponent
      · have hle : 18446744073709551616 ≤ n.magnitude := h
        rw [signed] at hmin hmax
        cases hsign : n.negative with
        | false =>
          rw [hsign, if_neg (by decide)] at hmax
          omega
        | true =>
          rw [hsign, if_pos rfl] at hmin
          omega
    rw [hnone]
    have hread := ho rest hrest
    cases o with
    | none =>
      obtain ⟨beyond, hread⟩ := hread
      rw [hread]
      exact ⟨_, rfl⟩
    | some x =>
      rw [show readNumber _ _ = .ok (Num.real x, rest) from hread]
      exact ⟨_, rfl⟩

/-- The double that a number is taken for. -/
def Num.double : Num → Binary64
  | .natural n => .ofNat n
  | .negative n => .ofInt n
  | .real x => x

/-- **A double** is found where a numeral stands for one, and one that stands for none is out of
range. -/
theorem Numeral.readReal_settles (n : Numeral) {rest : Octets} (hrest : Stops rest) :
    Settles n.double? rest (readReal (octetsOfChars n.chars ++ rest)) := by
  obtain ⟨o, ho⟩ : ∃ o : Option Num, ∀ rest, Stops rest →
      Settles o rest (readNumber (!n.negative) (octetsOfChars n.unsignedChars ++ rest)) := by
    rcases n.readNumber_cases (!n.negative) with ⟨-, -, -, hread⟩ | ⟨-, o, ho⟩
    · exact ⟨some _, hread⟩
    · exact ⟨_, ho⟩
  have hreal : ∀ rest, Stops rest →
      Settles (o.map Num.double) rest (readReal (octetsOfChars n.chars ++ rest)) := by
    intro rest hrest
    have hread := ho rest hrest
    rw [readReal, n.readNum_append]
    cases o with
    | none =>
      obtain ⟨beyond, hread⟩ := hread
      rw [hread]
      exact ⟨_, rfl⟩
    | some x =>
      rw [show readNumber _ _ = .ok (x, rest) from hread]
      cases x <;> rfl
  -- alone it is read with nothing behind it
  have halone := hreal [] ⟨rfl, rfl⟩
  rw [List.append_nil] at halone
  have hself : n.double? = _ := halone.toOption_eq
  rw [hself]
  exact hreal rest hrest

/-- **No double is found exactly if one is reported as out of range.** -/
theorem Numeral.double?_eq_none_iff (n : Numeral) : n.double? = none ↔ n.OutOfRange := by
  have hstops : Stops [] := ⟨rfl, rfl⟩
  have halone := n.readReal_settles hstops
  rw [List.append_nil] at halone
  constructor
  · intro h
    rw [h] at halone
    exact halone
  · rintro ⟨beyond, h⟩
    rw [double?, h]
    rfl

end Telemetry.Json
