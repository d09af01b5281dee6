/-!
# Double-precision numbers, exactly

A gauge holds a double. Everything the library does with one - rounding a
fraction to it, multiplying, dividing, comparing, writing its digits - is done
here in exact arithmetic on natural numbers, so that each operation has one
meaning that proofs can open.

The one thing to know is how a double is stored. The non-negative doubles,
infinity included, are numbered in order: `0` is zero, `1` the least subnormal,
and `Rank.infinite` is infinity. That number is its **rank**, and it is the low
63 bits of the interchange format. A finite double of rank `r` is a whole number
of units of `2 ^ (-1074)`, namely `units r`.

* `units`: the value of a rank, in units of the least positive double;
* `floorRank`: the greatest rank whose value is at most a given number of units;
* `nearestRank`: the rank nearest to a fraction, a tie going to the even rank;
* `Binary64.ofFraction`, `add`, `mul`, `div`: the operations, each rounding once.
-/

namespace Telemetry

/-- How many doubles share one exponent. -/
def octave : Nat := Nat.pow 2 52

/-- The rank of infinity, one above the greatest finite rank. -/
def infiniteRank : Nat := 2047 * octave

/-- The place of a non-negative double among all of them, infinity last. -/
abbrev Rank : Type := Fin (infiniteRank + 1)

/-- A double. All values that are not a number are one, for nothing tells them
apart. -/
inductive Binary64 where
  /-- Not a number. -/
  | nan
  /-- A zero, a finite number or an infinity, by sign and rank. -/
  | signed (negative : Bool) (rank : Rank)
deriving DecidableEq, Repr

/-! ### Ranks and their values -/

/-- The value of a rank in units of the least positive double. The rank of
infinity gets the value its place in the order would have. -/
def units (rank : Nat) : Nat :=
  if rank < octave then rank
  else (octave + rank % octave) * Nat.pow 2 (rank / octave - 1)

/-- The greatest rank whose value is at most `n` units: the leading 53 binary
digits of `n`, counted on from the exponent they stand at. -/
def floorRank (n : Nat) : Nat :=
  let shift := n.log2 - 52
  shift * octave + n / Nat.pow 2 shift

/-- How many units make one. -/
def unitsPerOne : Nat := Nat.pow 2 1074

/-- The rank nearest to `num / den`. Between two neighbours the even one wins a
tie, and from half a step past the greatest finite number on it is infinity. -/
def nearestRank (num den : Nat) : Nat :=
  let exact := num * unitsPerOne
  let low := floorRank (exact / den)
  if infiniteRank ≤ low then infiniteRank
  else
    let twice := 2 * exact
    let middle := den * (units low + units (low + 1))
    if twice < middle then low
    else if middle < twice then low + 1
    else if low % 2 = 0 then low else low + 1

/-- A rank from a number, anything past infinity being infinity. -/
def Rank.clamp (n : Nat) : Rank :=
  ⟨min n infiniteRank, Nat.lt_succ_of_le (Nat.min_le_right ..)⟩

namespace Binary64

/-! ### Zeros, infinities, signs -/

/-- Positive zero. -/
def zero : Binary64 := .signed false (Rank.clamp 0)

/-- Negative zero. -/
def negZero : Binary64 := .signed true (Rank.clamp 0)

/-- An infinity of the given sign. -/
def infinity (negative : Bool) : Binary64 := .signed negative (Rank.clamp infiniteRank)

/-- Not a number? -/
def isNaN : Binary64 → Bool
  | .nan => true
  | .signed .. => false

/-- An infinity of either sign? -/
def isInfinite : Binary64 → Bool
  | .nan => false
  | .signed _ r => r.val == infiniteRank

/-- Neither an infinity nor the value that is not a number? -/
def isFinite (x : Binary64) : Bool := !x.isNaN && !x.isInfinite

/-- The other sign. -/
def neg : Binary64 → Binary64
  | .nan => .nan
  | .signed s r => .signed (!s) r

/-- Equality of numbers: the two zeros are equal, and what is not a number
equals nothing, not even itself. -/
def numEq : Binary64 → Binary64 → Bool
  | .signed s r, .signed t q => r == q && (s == t || r.val == 0)
  | _, _ => false

/-! ### Rounding -/

/-- The double nearest to `num / den` in magnitude, with the given sign. -/
def ofFraction (negative : Bool) (num den : Nat) : Binary64 :=
  .signed negative (Rank.clamp (nearestRank num den))

/-- The double nearest to a natural number. -/
def ofNat (n : Nat) : Binary64 := ofFraction false n 1

/-- The double nearest to a whole number. -/
def ofInt (n : Int) : Binary64 := ofFraction (n < 0) n.natAbs 1

/-- The signed number of units of a sign and a rank. -/
def signedUnits (negative : Bool) (rank : Rank) : Int :=
  if negative then -(units rank : Int) else units rank

/-- Sum, rounded once. -/
def add : Binary64 → Binary64 → Binary64
  | .signed s r, .signed t q =>
    if r.val = infiniteRank then
      if q.val = infiniteRank ∧ s ≠ t then .nan else infinity s
    else if q.val = infiniteRank then infinity t
    else
      let sum := signedUnits s r + signedUnits t q
      if sum = 0 then .signed (s && t) (Rank.clamp 0)
      else ofFraction (sum < 0) sum.natAbs unitsPerOne
  | _, _ => .nan

/-- Product, rounded once. -/
def mul : Binary64 → Binary64 → Binary64
  | .signed s r, .signed t q =>
    if r.val = infiniteRank ∨ q.val = infiniteRank then
      if r.val = 0 ∨ q.val = 0 then .nan else infinity (s != t)
    else ofFraction (s != t) (units r * units q) (unitsPerOne * unitsPerOne)
  | _, _ => .nan

/-- Quotient, rounded once. -/
def div : Binary64 → Binary64 → Binary64
  | .signed s r, .signed t q =>
    if r.val = infiniteRank then
      if q.val = infiniteRank then .nan else infinity (s != t)
    else if q.val = infiniteRank then .signed (s != t) (Rank.clamp 0)
    else if q.val = 0 then
      if r.val = 0 then .nan else infinity (s != t)
    else ofFraction (s != t) (units r) (units q)
  | _, _ => .nan

/-! ### Whole numbers -/

/-- The whole part of a finite double, toward zero. -/
def truncate : Binary64 → Option Int
  | .nan => none
  | .signed s r =>
    if r.val = infiniteRank then none
    else
      let whole : Nat := units r / unitsPerOne
      some (if s then -(whole : Int) else whole)

/-- The nearest 64-bit whole number toward zero: what is too large is cut at the
end of the range, and what is not a number gives zero. -/
def toInt64 (x : Binary64) : Int64 :=
  match x with
  | .nan => 0
  | .signed s r =>
    match x.truncate with
    | some n => Int64.ofIntClamp n
    | none => if s then Int64.minValue else if r.val = 0 then 0 else Int64.maxValue

/-- The nearest double of a 64-bit whole number. -/
def ofInt64 (n : Int64) : Binary64 := ofInt n.toInt

/-- Is the double a whole number? -/
def isWhole : Binary64 → Bool
  | .nan => false
  | .signed _ r => r.val != infiniteRank && units r % unitsPerOne == 0

/-! ### The interchange format -/

/-- The 64 bits of the interchange format; what is not a number has none of its
own. -/
def toBits? : Binary64 → Option UInt64
  | .nan => none
  | .signed s r => some (UInt64.ofNat ((if s then Nat.pow 2 63 else 0) + r.val))

/-- The double that 64 bits stand for. -/
def ofBits (bits : UInt64) : Binary64 :=
  let magnitude := bits.toNat % Nat.pow 2 63
  if infiniteRank < magnitude then .nan
  else .signed (Nat.pow 2 63 ≤ bits.toNat) (Rank.clamp magnitude)

/-! ### Small laws -/

@[simp] theorem neg_neg (x : Binary64) : x.neg.neg = x := by
  cases x <;> simp [neg]

/-- Nothing that is not a number equals itself; every other double does. -/
theorem numEq_self (x : Binary64) : x.numEq x = !x.isNaN := by
  cases x <;> simp [numEq, isNaN]

/-- Equality of numbers goes either way. -/
theorem numEq_comm (x y : Binary64) : x.numEq y = y.numEq x := by
  cases x with
  | nan => cases y <;> rfl
  | signed s r =>
    cases y with
    | nan => rfl
    | signed t q =>
      by_cases h : r = q
      · subst h
        cases s <;> cases t <;> rfl
      · have hrq : (r == q) = false := beq_eq_false_iff_ne.2 h
        have hqr : (q == r) = false := beq_eq_false_iff_ne.2 fun hc => h hc.symm
        simp only [numEq, hrq, hqr, Bool.false_and]

end Binary64

end Telemetry
