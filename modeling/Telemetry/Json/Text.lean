import Telemetry.Json.Fault

/-!
# Strings in JSON texts

A string is read octet by octet up to the closing quote: escapes are replaced as
they come, everything else is kept, and only at the end it turns out whether the
octets are UTF-8. If they are not, the place of the fault is behind the first octet
that no character begins with. A skipped string is checked for its escapes and controls alone.

The recursion goes along the octets still unread. An escape takes more than one of
them at a time, so they are handed down a second time as fuel, one for each turn: there
always is as much fuel as there are octets.
-/

namespace Telemetry.Json

/-- The value of a hexadecimal digit of either case. -/
def hexValue? (b : UInt8) : Option Nat :=
  if 48 ≤ b ∧ b ≤ 57 then some (b.toNat - 48)
  else if 65 ≤ b ∧ b ≤ 70 then some (b.toNat - 55)
  else if 97 ≤ b ∧ b ≤ 102 then some (b.toNat - 87)
  else none

/-- The number that four hexadecimal digits write. -/
def readHex4 (text : Octets) : Except Stop (Nat × Octets) :=
  match text with
  | a :: b :: c :: d :: rest =>
    match hexValue? a, hexValue? b, hexValue? c, hexValue? d with
    | some a, some b, some c, some d => .ok (((a * 16 + b) * 16 + c) * 16 + d, rest)
    | _, _, _, _ => stopAt .invalidEscape rest
  | _ => stopAt .endInString []

/-- The UTF-8 form of a code point. -/
def codePoint (n : Nat) : Octets := String.utf8EncodeChar (Char.ofNat n)

/-- The other half of a surrogate pair, and the code point of both. -/
def readTrailing (leading : Nat) (text : Octets) : Except Stop (Nat × Octets) :=
  match text with
  | [] => stopAt .endInString []
  | b :: rest =>
    if b ≠ ascii '\\' then stopAt .endInSurrogate rest
    else match rest with
      | [] => stopAt .endInString []
      | c :: rest =>
        if c ≠ ascii 'u' then stopAt .endInSurrogate rest
        else match readHex4 rest with
          | .error e => .error e
          | .ok (trailing, rest) =>
            if trailing < 0xDC00 ∨ 0xDFFF < trailing then stopAt .loneSurrogate rest
            else .ok (0x10000 + (leading - 0xD800) * 0x400 + (trailing - 0xDC00), rest)

/-- The octets that an escape stands for, the text beginning behind its
backslash. -/
def readEscape (text : Octets) : Except Stop (Octets × Octets) :=
  match text with
  | [] => stopAt .endInString []
  | b :: rest =>
    if b = ascii '"' ∨ b = ascii '\\' ∨ b = ascii '/' then .ok ([b], rest)
    else if b = ascii 'b' then .ok ([8], rest)
    else if b = ascii 'f' then .ok ([12], rest)
    else if b = ascii 'n' then .ok ([10], rest)
    else if b = ascii 'r' then .ok ([13], rest)
    else if b = ascii 't' then .ok ([9], rest)
    else if b = ascii 'u' then
      match readHex4 rest with
      | .error e => .error e
      | .ok (n, rest) =>
        if 0xDC00 ≤ n ∧ n ≤ 0xDFFF then stopAt .loneSurrogate rest
        else if n < 0xD800 ∨ 0xDBFF < n then .ok (codePoint n, rest)
        else (readTrailing n rest).map fun p => (codePoint p.1, p.2)
    else stopAt .invalidEscape rest

/-- The octets of a string up to its closing quote, behind those already read,
which are held in reverse. -/
def readQuoted (fuel before text : Octets) : Except Stop (Octets × Octets) :=
  match fuel, text with
  | [], _ | _, [] => stopAt .endInString []
  | _ :: fuel, b :: rest =>
    if b = ascii '"' then .ok (before.reverse, rest)
    else if b = ascii '\\' then
      match readEscape rest with
      | .error e => .error e
      | .ok (octets, rest) => readQuoted fuel (octets.reverse ++ before) rest
    else if b < 32 then stopAt .controlCharacter rest
    else readQuoted fuel (b :: before) rest

/-- A string behind its opening quote. -/
def readChars (text : Octets) : Except Stop (String × Octets) :=
  match readQuoted text [] text with
  | .error e => .error e
  | .ok (octets, rest) =>
    match textOf? octets with
    | some s => .ok (s, rest)
    | none => stopAt .invalidCodePoint (behindInvalid text.length text)

/-- What is left of a text behind an escape that nobody reads. -/
def skipEscape (text : Octets) : Except Stop Octets :=
  match text with
  | [] => stopAt .endInString []
  | b :: rest =>
    if b = ascii 'u' then (readHex4 rest).map (·.2)
    else if "\"\\/bfnrt".toList.any fun c => b == ascii c then .ok rest
    else stopAt .invalidEscape rest

/-- What is left of a text behind a string that nobody reads. -/
def skipQuoted (fuel text : Octets) : Except Stop Octets :=
  match fuel, text with
  | [], _ | _, [] => stopAt .endInString []
  | _ :: fuel, b :: rest =>
    if b = ascii '"' then .ok rest
    else if b = ascii '\\' then
      match skipEscape rest with
      | .error e => .error e
      | .ok rest => skipQuoted fuel rest
    else if b < 32 then stopAt .controlCharacter (b :: rest)
    else skipQuoted fuel rest

/-- What is left of a text behind a string, read from behind its opening quote. -/
def skipChars (text : Octets) : Except Stop Octets := skipQuoted text text

end Telemetry.Json
