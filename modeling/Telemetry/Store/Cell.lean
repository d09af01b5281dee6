import Telemetry.Number.Reading

/-!
# Cells of a table

A cell holds a whole number of 64 bits, a double or a text, and a column has a
**leaning**: it turns what is put into it into the kind of number it prefers, where
that loses nothing, and takes the rest as it is. So a column of whole numbers may
hold a text that another program put there, and a comparison or a sum has to make
sense of it.

* `Leaning.store`: what becomes of a cell put into a column;
* `Cell.add`, `Cell.sub`: sums that stay whole as long as they fit, and are doubles
  from there on;
* `Cell.lt`: numbers by value, and every text above every number.
-/

namespace Telemetry

/-- What a row holds in one column. -/
inductive Cell where
  /-- A whole number. -/
  | integer (n : Int64)
  /-- A double. -/
  | real (x : Binary64)
  /-- A text. -/
  | text (s : String)
deriving DecidableEq, Repr

/-- The kind of number that a column prefers. -/
inductive Leaning where
  /-- Whole numbers. -/
  | whole
  /-- Doubles. -/
  | double
deriving DecidableEq, Repr

/-! ### Numbers in texts -/

/-- White space in front of and behind a number. -/
def isPadding (c : Char) : Bool := c == ' ' || (9 ≤ c.toNat && c.toNat ≤ 13)

/-- The whole number with a sign, or the double next to it if it does not fit. -/
def Cell.ofInt (n : Int) : Cell :=
  if Int64.minValue.toInt ≤ n ∧ n ≤ Int64.maxValue.toInt then .integer (Int64.ofInt n)
  else .real (.ofInt n)

/-- An exponent at the head of a text, and the text behind it. -/
def takeExponent? (cs : List Char) : Option (Int × List Char) :=
  match cs with
  | c :: rest =>
    if c = 'e' ∨ c = 'E' then
      let (negative, rest) := match rest with
        | '-' :: r => (true, r)
        | '+' :: r => (false, r)
        | r => (false, r)
      let digits := rest.takeWhile isDigit
      let n : Int := digitsValue digits
      if digits.isEmpty then none else some (if negative then -n else n, rest.drop digits.length)
    else none
  | [] => none

/-- The number at the head of a text, and whether nothing but white space follows
it. A number without point and exponent is whole. -/
def numberIn (s : String) : Option (Cell × Bool) :=
  let (negative, cs) := match s.toList.dropWhile isPadding with
    | '-' :: r => (true, r)
    | '+' :: r => (false, r)
    | r => (false, r)
  let whole := cs.takeWhile isDigit
  let rest := cs.drop whole.length
  let (pointed, fraction, rest) := match rest with
    | '.' :: r => (true, r.takeWhile isDigit, r.dropWhile isDigit)
    | r => (false, [], r)
  if whole.isEmpty && fraction.isEmpty then none
  else
    let significand := digitsValue (whole ++ fraction)
    let double (e : Int) : Cell := .real (.ofDecimal negative ⟨significand, e - fraction.length⟩)
    let (cell, rest) := match takeExponent? rest with
      | some (e, rest) => (double e, rest)
      | none =>
        if pointed then (double 0, rest)
        else (Cell.ofInt (if negative then -(significand : Int) else significand), rest)
    some (cell, (rest.dropWhile isPadding).isEmpty)

/-! ### What a column makes of a cell -/

namespace Cell

/-- A whole double strictly inside the range of whole numbers, as one of them. -/
def wholeIfExact : Cell → Cell
  | .real x =>
    match x.truncate with
    | some n =>
      if x.isWhole ∧ Int64.minValue.toInt < n ∧ n < Int64.maxValue.toInt then
        .integer (Int64.ofInt n)
      else .real x
    | none => .real x
  | c => c

/-- A text that is a number as that number. -/
def numericIfAll : Cell → Cell
  | .text s =>
    match numberIn s with
    | some (c, true) => c
    | _ => .text s
  | c => c

/-- A whole number as the double next to it. -/
def asDouble : Cell → Cell
  | .integer n => .real (.ofInt64 n)
  | c => c

end Cell

/-- What becomes of a cell put into a column. Whole doubles are kept as whole
numbers, so a column of doubles has no negative zero. -/
def Leaning.store (leaning : Leaning) (c : Cell) : Cell :=
  match leaning with
  | .whole => c.numericIfAll.wholeIfExact
  | .double => c.numericIfAll.wholeIfExact.asDouble

/-! ### Sums and comparisons -/

namespace Cell

/-- The number that a cell counts as in a sum: of a text the number at its head, or
zero. -/
def number : Cell → Cell
  | .text s => ((numberIn s).map Prod.fst).getD (.integer 0)
  | c => c

/-- The double that a number counts as. -/
def double : Cell → Binary64
  | .integer n => .ofInt64 n
  | .real x => x
  | .text _ => .zero

/-- The sum. -/
def add (a b : Cell) : Cell :=
  match a.number, b.number with
  | .integer m, .integer n =>
    if Int64.minValue.toInt ≤ m.toInt + n.toInt ∧ m.toInt + n.toInt ≤ Int64.maxValue.toInt then
      .integer (Int64.ofInt (m.toInt + n.toInt))
    else .real ((Binary64.ofInt64 m).add (.ofInt64 n))
  | x, y => .real (x.double.add y.double)

/-- The difference. -/
def sub (a b : Cell) : Cell :=
  match a.number, b.number with
  | .integer m, .integer n =>
    if Int64.minValue.toInt ≤ m.toInt - n.toInt ∧ m.toInt - n.toInt ≤ Int64.maxValue.toInt then
      .integer (Int64.ofInt (m.toInt - n.toInt))
    else .real ((Binary64.ofInt64 m).add (Binary64.ofInt64 n).neg)
  | x, y => .real (x.double.add y.double.neg)

/-- A number in units of the least positive double, an infinity lying beyond all
others. -/
def scaled : Cell → Int
  | .integer n => n.toInt * unitsPerOne
  | .real (.signed s r) => Binary64.signedUnits s r
  | .real .nan => 0
  | .text _ => 0

/-- Is a cell less than another one? -/
def lt (a b : Cell) : Bool :=
  match a, b with
  | .text s, .text t => s < t
  | .text _, _ => false
  | _, .text _ => true
  | .integer m, .integer n => m < n
  | x, y => x.scaled < y.scaled

end Cell

/-! ### Small laws -/

/-- A whole number stays what it is in a column of whole numbers. -/
@[simp] theorem store_whole_integer (n : Int64) :
    Leaning.whole.store (.integer n) = .integer n := rfl

/-- Where a sum of whole numbers fits, it is whole. -/
theorem Cell.add_integer {m n : Int64} (h : Int64.minValue.toInt ≤ m.toInt + n.toInt ∧
    m.toInt + n.toInt ≤ Int64.maxValue.toInt) :
    (Cell.integer m).add (.integer n) = .integer (Int64.ofInt (m.toInt + n.toInt)) := if_pos h

end Telemetry
