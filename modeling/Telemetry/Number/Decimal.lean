import Telemetry.Number.Binary64

/-!
# Doubles and decimal numerals

A **decimal** is a natural number times a power of ten. Two maps connect
decimals with doubles, and neither is one-sided:

* `Binary64.ofDecimal` rounds a decimal to the nearest double;
* `Decimal.shortest` gives the decimal with the fewest digits that rounds back
  to a double, and among those the one nearest to it.

For the second, the reals that round to the double of rank `r` form an interval
whose ends lie half way to its neighbours, ends included exactly when `r` is
even. A decimal grid with spacing `10 ^ e` meets the interval exactly when one
of the two grid points next to the double lies in it, so `1`, `2`, ... `17`
digits are tried in turn and only two points of each grid.
-/

namespace Telemetry

/-- The number `significand * 10 ^ exponent`. -/
structure Decimal where
  /-- The digits, as one natural number. -/
  significand : Nat
  /-- The power of ten that the last digit counts. -/
  exponent : Int
deriving DecidableEq, Repr

/-- How many decimal digits a natural number has; zero has one. -/
def digitCount (n : Nat) : Nat := (Nat.toDigits 10 n).length

namespace Decimal

/-- The same number without zeros at the end of the significand. -/
def normalize (d : Decimal) : Decimal :=
  let zeros := ((Nat.toDigits 10 d.significand).reverse.takeWhile (· == '0')).length
  if d.significand = 0 then ⟨0, 0⟩
  else ⟨d.significand / Nat.pow 10 zeros, d.exponent + zeros⟩

/-- The power of ten just above a positive number of units: the least `k` with
`units < 10 ^ k`. -/
def magnitude (u : Nat) : Int :=
  if unitsPerOne ≤ u then digitCount (u / unitsPerOne)
  else 1 - digitCount ((unitsPerOne - 1) / u)

/-- Is the decimal among the reals that round to rank `r`? -/
def roundsTo (r : Nat) (d : Decimal) : Bool :=
  let num := 2 * d.significand * unitsPerOne * Nat.pow 10 d.exponent.toNat
  let den := Nat.pow 10 (-d.exponent).toNat
  let low := (units (r - 1) + units r) * den
  let high := (units r + units (r + 1)) * den
  if r % 2 = 0 then low ≤ num && num ≤ high else low < num && num < high

/-- The number of `n` digits next below a number of units. -/
def below (u n : Nat) : Decimal :=
  let e := magnitude u - n
  ⟨u * Nat.pow 10 (-e).toNat / (unitsPerOne * Nat.pow 10 e.toNat), e⟩

/-- Of a decimal and the next one on its grid, the one nearer to a number of
units, a tie going to the even one. -/
def nearer (u : Nat) (d : Decimal) : Decimal :=
  let twice := 2 * u * Nat.pow 10 (-d.exponent).toNat
  let middle := (2 * d.significand + 1) * unitsPerOne * Nat.pow 10 d.exponent.toNat
  if twice < middle then d
  else if middle < twice then ⟨d.significand + 1, d.exponent⟩
  else if d.significand % 2 = 0 then d else ⟨d.significand + 1, d.exponent⟩

/-- The decimal of `n` digits that rounds to rank `r`, if there is one. -/
def ofDigits? (r n : Nat) : Option Decimal :=
  let low := below (units r) n
  let high : Decimal := ⟨low.significand + 1, low.exponent⟩
  match roundsTo r low, roundsTo r high with
  | true, true => some (nearer (units r) low)
  | true, false => some low
  | false, true => some high
  | false, false => none

/-- The shortest decimal that rounds to a positive finite rank. Seventeen digits
are always enough. -/
def shortest (r : Nat) : Decimal :=
  let found := (List.range 17).findSome? fun n => ofDigits? r (n + 1)
  (found.getD (nearer (units r) (below (units r) 17))).normalize

end Decimal

/-- The double nearest to a decimal of the given sign. Far outside the range of
doubles the power of ten is not worked out. -/
def Binary64.ofDecimal (negative : Bool) (d : Decimal) : Binary64 :=
  let top := d.exponent + digitCount d.significand
  if d.significand = 0 then .signed negative (Rank.clamp 0)
  else if 310 < top then .infinity negative
  else if top < -330 then .signed negative (Rank.clamp 0)
  else
    .ofFraction negative (d.significand * Nat.pow 10 d.exponent.toNat)
      (Nat.pow 10 (-d.exponent).toNat)

/-! ### Writing -/

/-- How a format writes its doubles. -/
structure FloatStyle where
  /-- The powers of ten just above the numbers that are written out in full;
  all others get an exponent. `none`: every number is written out. -/
  positional : Option (Int × Int)
  /-- Does a whole number that is written out get `.0`? -/
  wholePoint : Bool
  /-- What stands for infinity, after the sign. -/
  infinity : String
  /-- What stands for a value that is not a number. -/
  nan : String

namespace FloatStyle

/-- The text of a gauge: digits written out in full, never an exponent. -/
def plain : FloatStyle := ⟨none, false, "inf", "NaN"⟩

/-- The text of a number in a record: from `0.00001` up to below `10 ^ 16`
written out with a point, an explicitly signed exponent outside. -/
def record : FloatStyle := ⟨some (-4, 16), true, "null", "null"⟩

/-- Digits `ds` with the point after the first `k` of them, `k` being any whole
number. -/
def pointAfter (k : Int) (ds : List Char) (wholePoint : Bool) : List Char :=
  if k ≤ 0 then '0' :: '.' :: (List.replicate (-k).toNat '0' ++ ds)
  else
    let whole := ds.take k.toNat ++ List.replicate (k.toNat - ds.length) '0'
    match ds.drop k.toNat with
    | [] => if wholePoint then whole ++ ['.', '0'] else whole
    | rest => whole ++ '.' :: rest

/-- Digits `ds` with the point after the first of them and an exponent. -/
def withExponent (k : Int) (ds : List Char) : List Char :=
  let mantissa := match ds with
    | [] => []
    | [d] => [d]
    | d :: rest => d :: '.' :: rest
  let e := k - 1
  mantissa ++ 'e' :: (if e < 0 then '-' else '+') :: Nat.toDigits 10 e.natAbs

/-- A positive decimal in a style. -/
def decimalChars (style : FloatStyle) (d : Decimal) : List Char :=
  let ds := Nat.toDigits 10 d.significand
  let k := d.exponent + ds.length
  match style.positional with
  | none => pointAfter k ds style.wholePoint
  | some (low, high) =>
    if low ≤ k ∧ k ≤ high then pointAfter k ds style.wholePoint else withExponent k ds

/-- The characters of a double in a style. -/
def chars (style : FloatStyle) : Binary64 → List Char
  | .nan => style.nan.toList
  | .signed s r =>
    let sign := if s then ['-'] else []
    if r.val = infiniteRank then sign ++ style.infinity.toList
    else if r.val = 0 then sign ++ (if style.wholePoint then ['0', '.', '0'] else ['0'])
    else sign ++ style.decimalChars (Decimal.shortest r.val)

/-- The text of a double in a style. -/
def text (style : FloatStyle) (x : Binary64) : String := String.ofList (style.chars x)

/-- The plain text with `.0` behind it unless it has a point: the form in which
a message quotes a double. -/
def quotedText (x : Binary64) : String :=
  let s := plain.chars x
  String.ofList (if s.contains '.' then s else s ++ ['.', '0'])

end FloatStyle

end Telemetry
