import Telemetry.Json.Fault

/-!
# Numbers in JSON texts

A number becomes one of three things: a natural number of 64 bits, a negative
whole number of 64 bits, or a double. The double is not always the one nearest to
the decimal that is written. Digits are collected into a 64-bit significand for
as long as it holds them, those that no longer fit are dropped (in front of the
point they still count in the power of ten), and the significand, rounded to a
double, is multiplied or divided by a rounded power of ten.

* `Num`: what a number can be;
* `gatherDigits`: the significand;
* `scaled`: the multiplication or division, with its range check;
* `readNumber`: a number at the head of a text.
-/

namespace Telemetry.Json

/-- A number as it is read. -/
inductive Num where
  /-- A natural number below `2 ^ 64`. -/
  | natural (n : Nat)
  /-- A negative whole number of 64 bits. -/
  | negative (n : Int)
  /-- Anything else, and negative zero. -/
  | real (x : Binary64)
deriving DecidableEq, Repr

/-- A number as a message shows it. -/
def Num.found : Num → Found
  | .natural n => .integer n
  | .negative n => .integer n
  | .real x => .real x

/-- The value of an octet that is a digit. -/
def octetDigit? (b : UInt8) : Option Nat :=
  if 48 ≤ b ∧ b ≤ 57 then some (b.toNat - 48) else none

/-- A digit? -/
def isOctetDigit (b : UInt8) : Bool := 48 ≤ b && b ≤ 57

/-- Does a text begin with a digit? -/
def startsWithDigit : Octets → Bool
  | [] => false
  | b :: _ => isOctetDigit b

/-- Digits from the head of a text on top of a significand, for as long as it
stays below `2 ^ 64`: the significand, how many digits it took, and the rest. -/
def gatherDigits (m taken : Nat) : Octets → Nat × Nat × Octets
  | [] => (m, taken, [])
  | b :: rest =>
    match octetDigit? b with
    | some d =>
      if 10 * m + d < Nat.pow 2 64 then gatherDigits (10 * m + d) (taken + 1) rest
      else (m, taken, b :: rest)
    | none => (m, taken, b :: rest)

/-- A double divided by a power of ten. Powers above `10 ^ 308` are no doubles, so
the division then goes in steps. -/
def shrunk (x : Binary64) (power : Nat) : Binary64 :=
  if power ≤ 308 then x.div (.ofNat (Nat.pow 10 power))
  else if x.numEq .zero then x
  else shrunk (x.div (.ofNat (Nat.pow 10 308))) (power - 308)
termination_by power

/-- A double, or its negative. -/
def withSign (positive : Bool) (x : Binary64) : Binary64 := if positive then x else x.neg

/-- The double that a significand and a power of ten stand for. -/
def scaled (positive : Bool) (m : Nat) (power : Int) (rest : Octets) :
    Except Stop (Binary64 × Octets) :=
  if power < 0 then .ok (withSign positive (shrunk (.ofNat m) power.natAbs), rest)
  else if m = 0 then .ok (withSign positive .zero, rest)
  else if 308 < power then stopAt .numberOutOfRange rest
  else
    let x := (Binary64.ofNat m).mul (.ofNat (Nat.pow 10 power.toNat))
    if x.isInfinite then stopAt .numberOutOfRange rest
    else .ok (withSign positive x, rest)

/-- Digits on top of an exponent. The digit with which it would leave 32 bits is
taken, and then there is no exponent. -/
def gatherExponent (e : Nat) : Octets → Option Nat × Octets
  | [] => (some e, [])
  | b :: rest =>
    match octetDigit? b with
    | some d => if 10 * e + d < Nat.pow 2 31 then gatherExponent (10 * e + d) rest else (none, rest)
    | none => (some e, b :: rest)

/-- A power of ten, cut at the ends of 32 bits. -/
def clampPower (e : Int) : Int := max (-2147483648) (min 2147483647 e)

/-- The double of a significand with the digits of an exponent. -/
def readExponent (positive : Bool) (m : Nat) (power : Int) (up : Bool) (digits : Octets) :
    Except Stop (Binary64 × Octets) :=
  match digits with
  | [] => stopAt .endInValue []
  | b :: rest =>
    match octetDigit? b with
    | none => stopAt .invalidNumber rest
    | some d =>
      match gatherExponent d rest with
      | (some e, rest) => scaled positive m (clampPower (if up then power + e else power - e)) rest
      | (none, rest) =>
        if m ≠ 0 ∧ up = true then stopAt .numberOutOfRange rest
        else .ok (withSign positive .zero, rest.dropWhile isOctetDigit)

/-- The double of a significand with the exponent that follows its letter. -/
def readPower (positive : Bool) (m : Nat) (power : Int) (text : Octets) :
    Except Stop (Binary64 × Octets) :=
  match text with
  | [] => readExponent positive m power true []
  | b :: rest =>
    if b = ascii '+' then readExponent positive m power true rest
    else if b = ascii '-' then readExponent positive m power false rest
    else readExponent positive m power true (b :: rest)

/-- The double of a significand: with an exponent if one follows, without
otherwise. -/
def readScaled (positive : Bool) (m : Nat) (power : Int) (text : Octets) :
    Except Stop (Binary64 × Octets) :=
  match text with
  | [] => scaled positive m power []
  | b :: rest =>
    if b = ascii 'e' ∨ b = ascii 'E' then readPower positive m power rest
    else scaled positive m power (b :: rest)

/-- The double of a significand with the digits behind its point. There must be at
least one digit. -/
def readFraction (positive : Bool) (m : Nat) (power : Int) (text : Octets) :
    Except Stop (Binary64 × Octets) :=
  match gatherDigits m 0 text with
  | (n, taken, rest) =>
    if startsWithDigit rest then
      readScaled positive n (power - taken) (rest.dropWhile isOctetDigit)
    else if taken = 0 then
      stopBefore (if rest.isEmpty then .endInValue else .invalidNumber) rest
    else readScaled positive n (power - taken) rest

/-- What follows the whole part of a number: a fraction, an exponent or neither. -/
def readTail (positive : Bool) (m : Nat) (power : Int) (text : Octets) :
    Except Stop (Binary64 × Octets) :=
  match text with
  | [] => scaled positive m power []
  | b :: rest =>
    if b = ascii '.' then readFraction positive m power rest
    else readScaled positive m power (b :: rest)

/-- Does a fraction or an exponent follow? -/
def startsTail : Octets → Bool
  | [] => false
  | b :: _ => b == ascii '.' || b == ascii 'e' || b == ascii 'E'

/-- The number whose whole part is a significand that 64 bits hold. -/
def readWhole (positive : Bool) (m : Nat) (text : Octets) : Except Stop (Num × Octets) :=
  if startsTail text then (readTail positive m 0 text).map fun p => (.real p.1, p.2)
  else if positive then .ok (.natural m, text)
  else if m = 0 then .ok (.real .negZero, text)
  else if m ≤ Nat.pow 2 63 then .ok (.negative (-m), text)
  else .ok (.real (Binary64.ofNat m).neg, text)

/-- A number behind its sign. -/
def readNumber (positive : Bool) (text : Octets) : Except Stop (Num × Octets) :=
  match text with
  | [] => stopAt .endInValue []
  | b :: rest =>
    match octetDigit? b with
    | none => stopAt .invalidNumber rest
    | some 0 =>
      if startsWithDigit rest then stopBefore .invalidNumber rest else readWhole positive 0 rest
    | some d =>
      match gatherDigits d 0 rest with
      | (m, _, rest) =>
        if startsWithDigit rest then
          let dropped := (rest.takeWhile isOctetDigit).length
          (readTail positive m dropped (rest.dropWhile isOctetDigit)).map fun p => (.real p.1, p.2)
        else readWhole positive m rest

end Telemetry.Json
