import Telemetry.Number.Reading

/-!
# Names of hosts in ASCII letters

A label with other letters than those of ASCII is written with ASCII letters alone:
first the ASCII characters it has, then, behind a hyphen, where the others go. They
are taken in the order of their numbers; for each of them the number of places that
were passed over since the last one is written in base 36, the least digit first.
Which digit is the last one of a number depends on a threshold that follows the sizes
of the numbers so far.

* `Punycode.encode`: the form of a label;
* `Punycode.decode?`: the label of a form;
* `asciiLabel?`: the label as it stands in a name.
-/

namespace Telemetry.Net

namespace Punycode

/-- A digit: 26 letters, then ten figures. -/
def digitChar (d : Nat) : Char :=
  if d < 26 then Char.ofNat ('a'.toNat + d) else Char.ofNat ('0'.toNat + (d - 26))

/-- The threshold at a place, counted in steps of 36. -/
def threshold (place bias : Nat) : Nat :=
  if place ≤ bias then 1 else if bias + 26 ≤ place then 26 else place - bias

/-- A threshold is never zero, so there is always a last digit. -/
theorem threshold_pos (place bias : Nat) : 1 ≤ threshold place bias := by
  unfold threshold
  split
  · omega
  · split <;> omega

/-- A number from some place on. -/
def digits (bias place n : Nat) : List Char :=
  let t := threshold place bias
  if n < t then [digitChar n]
  else digitChar (t + (n - t) % (36 - t)) :: digits bias (place + 36) ((n - t) / (36 - t))
termination_by n
decreasing_by
  have := threshold_pos place bias
  exact Nat.lt_of_le_of_lt (Nat.div_le_self _ _) (by omega)

/-- A number brought to a size at which it tells how large numbers are here, and how
often it had to be divided, in steps of 36. -/
def shrink (n steps : Nat) : Nat × Nat :=
  if 455 < n then shrink (n / 35) (steps + 36) else (n, steps)
termination_by n
decreasing_by omega

/-- The bias behind a number. -/
def nextBias (n written : Nat) (isFirst : Bool) : Nat :=
  let n := if isFirst then n / 700 else n / 2
  match shrink (n + n / written) 0 with
  | (n, steps) => steps + 36 * n / (n + 38)

/-- What has been written of a label. -/
structure Progress where
  /-- The digits, in reverse. -/
  out : List Char
  /-- The places passed over since the last digit. -/
  passed : Nat
  /-- The bias. -/
  bias : Nat
  /-- How many characters have been written. -/
  written : Nat

/-- One character of the label passed over, or written if it is the one whose turn it
is. -/
def pass (basic turn : Nat) (p : Progress) (c : Char) : Progress :=
  if c.toNat < turn then { p with passed := p.passed + 1 }
  else if c.toNat = turn then
    { out := (digits p.bias 36 p.passed).reverse ++ p.out
      passed := 0
      bias := nextBias p.passed (p.written + 1) (p.written == basic)
      written := p.written + 1 }
  else p

/-- The characters of a label whose turn it is one after the other. -/
def passAll (label : List Char) (basic : Nat) :
    (turns : List Nat) → (last : Nat) → Progress → Progress
  | [], _, p => p
  | turn :: turns, last, p =>
    let p := { p with passed := p.passed + (turn - last) * (p.written + 1) }
    let p := label.foldl (pass basic turn) p
    passAll label basic turns (turn + 1) { p with passed := p.passed + 1 }

/-- A label in ASCII letters. -/
def encode (label : List Char) : List Char :=
  let basic := label.filter fun c => c.toNat < 128
  let turns := ((label.filter fun c => 128 ≤ c.toNat).map Char.toNat).mergeSort.eraseDups
  let p := passAll label basic.length turns 128 ⟨[], 0, 72, basic.length⟩
  basic ++ (if basic.isEmpty then [] else ['-']) ++ p.out.reverse

/-! ### Reading -/

/-- The value of a digit. -/
def digitValue? (c : Char) : Option Nat :=
  if 'a' ≤ c ∧ c ≤ 'z' then some (c.toNat - 97)
  else if '0' ≤ c ∧ c ≤ '9' then some (c.toNat - 48 + 26)
  else none

/-- A number at the head of digits, on top of what the digits in front of them have
given; each digit counts `weight` times. -/
def takeDigits (bias : Nat) : (place weight sum : Nat) → List Char → Option (Nat × List Char)
  | _, _, _, [] => none
  | place, weight, sum, c :: cs => do
    let d ← digitValue? c
    let t := threshold place bias
    if d < t then some (sum + d * weight, cs)
    else takeDigits bias (place + 36) (weight * (36 - t)) (sum + d * weight) cs

/-- Characters put into those there are, one for each number in the digits. -/
def putAll : (fuel : Nat) → (bias turn place : Nat) → List Char → (isFirst : Bool) → List Char →
    Option (List Char)
  | _, _, _, _, label, _, [] => some label
  | 0, _, _, _, _, _, _ => none
  | fuel + 1, bias, turn, place, label, isFirst, cs => do
    let (n, cs) ← takeDigits bias 36 1 0 cs
    let places := label.length + 1
    let turn := turn + (place + n) / places
    let place := (place + n) % places
    let c := Char.ofNat turn
    if c.toNat ≠ turn then none
    else
      putAll fuel (nextBias n places isFirst) turn (place + 1)
        (label.take place ++ c :: label.drop place) false cs

/-- The label whose form these characters are. -/
def decode? (cs : List Char) : Option (List Char) :=
  let digits := (cs.reverse.takeWhile (· != '-')).reverse
  let basic := cs.take (cs.length - digits.length - 1)
  putAll (digits.length + 1) 72 128 0 basic true digits

end Punycode

/-! ### Letters that count as one -/

/-- The letter that a character of a name counts as: small letters for capital ones,
plain ones for wide ones, and a point for a full stop of any script. -/
def nameLetter (c : Char) : Char :=
  let n := c.toNat
  let shift (d : Nat) : Char := Char.ofNat (n + d)
  if 'A' ≤ c ∧ c ≤ 'Z' then shift 32
  else if n < 128 then c
  else if 0xC0 ≤ n ∧ n ≤ 0xDE ∧ n ≠ 0xD7 then shift 32
  else if (0x100 ≤ n ∧ n ≤ 0x12F ∨ 0x132 ≤ n ∧ n ≤ 0x137 ∨ 0x14A ≤ n ∧ n ≤ 0x177 ∨
      0x460 ≤ n ∧ n ≤ 0x481 ∨ 0x48A ≤ n ∧ n ≤ 0x4BF ∨ 0x4D0 ≤ n ∧ n ≤ 0x52F) ∧ n % 2 = 0 then
    shift 1
  else if (0x139 ≤ n ∧ n ≤ 0x148 ∨ 0x179 ≤ n ∧ n ≤ 0x17E ∨ 0x4C1 ≤ n ∧ n ≤ 0x4CE) ∧ n % 2 = 1 then
    shift 1
  else if 0x391 ≤ n ∧ n ≤ 0x3AB ∧ n ≠ 0x3A2 then shift 32
  else if 0x400 ≤ n ∧ n ≤ 0x40F then shift 80
  else if 0x410 ≤ n ∧ n ≤ 0x42F then shift 32
  else if 0x531 ≤ n ∧ n ≤ 0x556 then shift 48
  else if n = 0x3002 ∨ n = 0xFF0E ∨ n = 0xFF61 then '.'
  else if 0xFF21 ≤ n ∧ n ≤ 0xFF3A then Char.ofNat (n - 0xFF21 + 97)
  else if 0xFF01 ≤ n ∧ n ≤ 0xFF5E then Char.ofNat (n - 0xFEE0)
  else c

/-- A label as it stands in a name, of letters that count as themselves. A label that
looks like the form of another one has to be the form of one that needs it. -/
def asciiLabel? (label : List Char) : Option (List Char) :=
  if label.any fun c => 128 ≤ c.toNat then
    if "xn--".toList.isPrefixOf label then none else some ("xn--".toList ++ Punycode.encode label)
  else if "xn--".toList.isPrefixOf label then
    match Punycode.decode? (label.drop 4) with
    | some decoded =>
      if decoded.any (fun c => 128 ≤ c.toNat) && decoded.all (fun c => nameLetter c == c) &&
          Punycode.encode decoded == label.drop 4 then some label
      else none
    | none => none
  else some label

end Telemetry.Net
