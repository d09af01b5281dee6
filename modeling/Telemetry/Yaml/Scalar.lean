import Telemetry.Number.Reading
import Telemetry.Text.Quoted
import Telemetry.Yaml.Token

/-!
# What scalars mean

A scalar without quotes and without a tag is what it looks like: nothing, a truth
value, a whole number, another number, or else text. Numbers may be written in bases
two, eight, ten and sixteen; a decimal number with a needless zero in front is text.
A scalar with one of the usual tags has to look like what the tag says.
-/

namespace Telemetry.Yaml

/-! ### Looks -/

/-- A text that means nothing. -/
def looksNull (s : String) : Bool := s == "null" || s == "Null" || s == "NULL" || s == "~"

/-- The truth value a text looks like. -/
def looksBool? (s : String) : Option Bool :=
  if s = "true" ∨ s = "True" ∨ s = "TRUE" then some true
  else if s = "false" ∨ s = "False" ∨ s = "FALSE" then some false
  else none

/-- The value of a digit in a base up to sixteen. -/
def digitIn? (base : Nat) (c : Char) : Option Nat :=
  let v :=
    if '0' ≤ c ∧ c ≤ '9' then c.toNat - 48
    else if 'a' ≤ c ∧ c ≤ 'f' then c.toNat - 87
    else if 'A' ≤ c ∧ c ≤ 'F' then c.toNat - 55
    else base
  if v < base then some v else none

/-- The number that one or more digits write in a base, below a limit. -/
def digitsIn? (base limit : Nat) (cs : List Char) : Option Nat :=
  if cs.isEmpty then none
  else do
    let n ← cs.foldlM (fun n c => (digitIn? base c).map fun v => base * n + v) 0
    if n < limit then some n else none

/-- Digits with a needless zero in front, with or without a sign. -/
def hasNeedlessZero (cs : List Char) : Bool :=
  let digits := match cs with
    | '-' :: rest | '+' :: rest => rest
    | rest => rest
  match digits with
  | '0' :: c :: rest => (c :: rest).all isDigit
  | _ => false

/-- The number of a base that is written in front of its digits. -/
def based? (limit : Nat) (cs : List Char) : Option Nat :=
  match cs with
  | '0' :: 'x' :: digits => digitsIn? 16 limit digits
  | '0' :: 'o' :: digits => digitsIn? 8 limit digits
  | '0' :: 'b' :: digits => digitsIn? 2 limit digits
  | _ => none

/-- The natural number below a limit that a text looks like. -/
def looksNatural? (limit : Nat) (s : String) : Option Nat :=
  let cs := s.toList
  let unsigned := match cs with
    | '+' :: rest => rest
    | rest => rest
  match based? limit unsigned with
  | some n => some n
  | none => if hasNeedlessZero cs then none else digitsIn? 10 limit unsigned

/-- The negative number, at least the negative of a limit, that a text looks like;
zero with a sign is one. -/
def looksNegative? (limit : Nat) (s : String) : Option Int :=
  match s.toList with
  | '-' :: digits =>
    match based? (limit + 1) digits with
    | some n => some (-n)
    | none =>
      if hasNeedlessZero digits then none
      else (digitsIn? 10 (limit + 1) digits).map fun n => -(n : Int)
  | _ => none

/-- The double a text looks like. Only the words say infinity; digits that exceed the
range are text. -/
def looksReal? (s : String) : Option Binary64 :=
  let cs := s.toList
  let unsigned := match cs with
    | '+' :: rest => rest
    | rest => rest
  let twice := match cs with
    | '+' :: '+' :: _ | '+' :: '-' :: _ => true
    | _ => false
  let word := String.ofList unsigned
  if twice then none
  else if word = ".inf" ∨ word = ".Inf" ∨ word = ".INF" then some (.infinity false)
  else if s = "-.inf" ∨ s = "-.Inf" ∨ s = "-.INF" then some (.infinity true)
  else if s = ".nan" ∨ s = ".NaN" ∨ s = ".NAN" then some .nan
  else match readFloat unsigned with
    | .ok x => if x.isFinite then some x else none
    | .error _ => none

/-! ### Meanings -/

/-- What a scalar means. -/
inductive Meaning where
  /-- Nothing. -/
  | unit
  /-- A truth value. -/
  | boolean (b : Bool)
  /-- A whole number of 64 bits. -/
  | integer (n : Int)
  /-- A natural number of more bits. -/
  | longNatural (n : Nat)
  /-- A negative number of more bits. -/
  | longNegative (n : Int)
  /-- Another number. -/
  | real (x : Binary64)
  /-- Text. -/
  | text (s : String)
deriving DecidableEq, Repr

/-- The wording of a meaning. -/
def Meaning.describe : Meaning → String
  | .unit => "unit value"
  | .boolean b => "boolean `" ++ toString b ++ "`"
  | .integer n => "integer `" ++ toString n ++ "`"
  | .longNatural n => "integer `" ++ toString n ++ "` as u128"
  | .longNegative n => "integer `" ++ toString n ++ "` as i128"
  | .real x => "floating point `" ++ FloatStyle.quotedText x ++ "`"
  | .text s => "string " ++ quote s

/-- The whole number that a text looks like. -/
def wholeMeaning? (s : String) : Option Meaning :=
  match looksNatural? (Nat.pow 2 64) s with
  | some n => some (.integer n)
  | none =>
    match looksNegative? (Nat.pow 2 63) s with
    | some n => some (.integer n)
    | none =>
      match looksNatural? (Nat.pow 2 128) s with
      | some n => some (.longNatural n)
      | none => (looksNegative? (Nat.pow 2 127) s).map .longNegative

/-- What a scalar without quotes means by its looks. -/
def plainMeaning (s : String) : Meaning :=
  if s = "" ∨ looksNull s = true then .unit
  else match looksBool? s with
    | some b => .boolean b
    | none =>
      match wholeMeaning? s with
      | some m => m
      | none =>
        match if hasNeedlessZero s.toList then none else looksReal? s with
        | some x => .real x
        | none => .text s

/-- The tag of a usual type. -/
def usualTag (name : String) : String := "tag:yaml.org,2002:" ++ name

/-- What a scalar means; or, if it does not look like what its tag says, what it
should look like. -/
def meaning (tag : Option String) (s : String) (style : ScalarStyle) : Except String Meaning :=
  match tag with
  | none => .ok (if style = .plain then plainMeaning s else .text s)
  | some t =>
    if t = usualTag "bool" then
      match looksBool? s with
      | some b => .ok (.boolean b)
      | none => .error "a boolean"
    else if t = usualTag "int" then
      match wholeMeaning? s with
      | some m => .ok m
      | none => .error "an integer"
    else if t = usualTag "float" then
      match looksReal? s with
      | some x => .ok (.real x)
      | none => .error "a float"
    else if t = usualTag "null" then
      if looksNull s then .ok .unit else .error "null"
    else if "!".isPrefixOf t && style == .plain then .ok (plainMeaning s)
    else .ok (.text s)

end Telemetry.Yaml
