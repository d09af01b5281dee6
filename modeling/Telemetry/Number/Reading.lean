import Telemetry.Number.Decimal

/-!
# Reading numbers

Two grammars, each with its faults:

* a 64-bit whole number is an optional sign and one or more ASCII digits. The
  digits are taken from the left, so of two faults the one further left counts;
* a double is an optional sign and then `inf`, `infinity` or `nan` in any case,
  or digits with at most one point among them and at least one digit, and then
  an exponent or none. It is rounded once, from the exact decimal.
-/

namespace Telemetry

/-! ### Digits -/

/-- The value of an ASCII digit. -/
def digitValue? (c : Char) : Option Nat :=
  if '0' ≤ c ∧ c ≤ '9' then some (c.toNat - 48) else none

/-- An ASCII digit? -/
def isDigit (c : Char) : Bool := '0' ≤ c && c ≤ '9'

/-- The number that a run of digits writes, other characters counting nothing. -/
def digitsValue (cs : List Char) : Nat :=
  cs.foldl (fun n c => 10 * n + (digitValue? c).getD 0) 0

/-! ### Whole numbers -/

/-- Why a text is no whole number. -/
inductive IntFault where
  /-- Nothing to read. -/
  | empty
  /-- A character that is no digit, or a sign alone. -/
  | invalidDigit
  /-- Above the range. -/
  | tooLarge
  /-- Below the range. -/
  | tooSmall
deriving DecidableEq, Repr

/-- The wording of a fault. -/
def IntFault.message : IntFault → String
  | .empty => "cannot parse integer from empty string"
  | .invalidDigit => "invalid digit found in string"
  | .tooLarge => "number too large to fit in target type"
  | .tooSmall => "number too small to fit in target type"

/-- Digits from the left, on top of those already read, as long as their value
stays at most `limit`; the first fault met is the answer. -/
def readDigits (limit : Nat) (overflow : IntFault) : Nat → List Char → Except IntFault Nat
  | n, [] => .ok n
  | n, c :: cs =>
    match digitValue? c with
    | none => .error .invalidDigit
    | some d =>
      if limit < 10 * n + d then .error overflow
      else readDigits limit overflow (10 * n + d) cs

/-- A 64-bit whole number. -/
def readInt64 (cs : List Char) : Except IntFault Int64 :=
  match cs with
  | [] => .error .empty
  | ['+'] | ['-'] => .error .invalidDigit
  | '-' :: rest => (readDigits (Nat.pow 2 63) .tooSmall 0 rest).map fun n => Int64.ofInt (-n)
  | '+' :: rest => (readDigits (Nat.pow 2 63 - 1) .tooLarge 0 rest).map fun n => Int64.ofInt n
  | rest => (readDigits (Nat.pow 2 63 - 1) .tooLarge 0 rest).map fun n => Int64.ofInt n

/-! ### Doubles -/

/-- Why a text is no double. -/
inductive FloatFault where
  /-- Nothing to read. -/
  | empty
  /-- Outside the grammar. -/
  | invalid
deriving DecidableEq, Repr

/-- The wording of a fault. -/
def FloatFault.message : FloatFault → String
  | .empty => "cannot parse float from empty string"
  | .invalid => "invalid float literal"

/-- The exponent behind a significand: nothing, or `e`, an optional sign and one
or more digits. -/
def readExponent? (cs : List Char) : Option Int :=
  match cs with
  | [] => some 0
  | c :: rest =>
    if c = 'e' ∨ c = 'E' then
      let (negative, ds) := match rest with
        | '-' :: r => (true, r)
        | '+' :: r => (false, r)
        | r => (false, r)
      if ds.isEmpty || !ds.all isDigit then none
      else
        let n : Int := digitsValue ds
        some (if negative then -n else n)
    else none

/-- Digits, a point and digits, of which at least one digit must be there, and
an exponent. -/
def readDecimal? (cs : List Char) : Option Decimal :=
  let whole := cs.takeWhile isDigit
  let afterWhole := cs.dropWhile isDigit
  let (fraction, rest) := match afterWhole with
    | '.' :: r => (r.takeWhile isDigit, r.dropWhile isDigit)
    | r => ([], r)
  if whole.isEmpty && fraction.isEmpty then none
  else (readExponent? rest).map fun e => ⟨digitsValue (whole ++ fraction), e - fraction.length⟩

/-- A double. -/
def readFloat (cs : List Char) : Except FloatFault Binary64 :=
  let (negative, body) := match cs with
    | '-' :: r => (true, r)
    | '+' :: r => (false, r)
    | r => (false, r)
  if cs.isEmpty then .error .empty
  else
    let lower := body.map Char.toLower
    if lower = "inf".toList ∨ lower = "infinity".toList then .ok (.infinity negative)
    else if lower = "nan".toList then .ok .nan
    else match readDecimal? body with
      | some d => .ok (.ofDecimal negative d)
      | none => .error .invalid

/-! ### Small laws -/

/-- Exactly the digits have a value. -/
theorem digitValue?_isSome (c : Char) : (digitValue? c).isSome = isDigit c := by
  unfold digitValue? isDigit
  by_cases h : '0' ≤ c ∧ c ≤ '9'
  · simp [h]
  · rw [if_neg h]
    simp only [Option.isSome_none, Bool.false_eq, Bool.and_eq_false_imp, decide_eq_true_eq,
      decide_eq_false_iff_not]
    exact fun h0 h9 => h ⟨h0, h9⟩

/-- What is read stays below its limit. -/
theorem readDigits_le {limit : Nat} {overflow : IntFault} {n m : Nat} {cs : List Char}
    (hn : n ≤ limit) (h : readDigits limit overflow n cs = .ok m) : m ≤ limit := by
  induction cs generalizing n with
  | nil =>
    simp only [readDigits, Except.ok.injEq] at h
    exact h ▸ hn
  | cons c cs ih =>
    unfold readDigits at h
    split at h
    · cases h
    · split at h
      · cases h
      · exact ih (Nat.not_lt.1 ‹_›) h

end Telemetry
