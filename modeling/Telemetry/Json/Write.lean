import Telemetry.Number.Decimal
import Telemetry.Octets

/-!
# Writing JSON texts

Strings are written as they are, except for what cannot stand between quotes:
the quote, the backslash and the controls. A double is written with the shortest
digits that read back; one that is not finite has no form and becomes `null`.
-/

namespace Telemetry.Json

/-- One hexadecimal digit. -/
def hexDigit (n : Nat) : Char := (Nat.digitChar n)

/-- A character between quotes. -/
def escapeChar (c : Char) : List Char :=
  if c = '"' then ['\\', '"']
  else if c = '\\' then ['\\', '\\']
  else if c = '\n' then ['\\', 'n']
  else if c = '\r' then ['\\', 'r']
  else if c = '\t' then ['\\', 't']
  else if c = '\x08' then ['\\', 'b']
  else if c = '\x0c' then ['\\', 'f']
  else if c.toNat < 32 then ['\\', 'u', '0', '0', hexDigit (c.toNat / 16), hexDigit (c.toNat % 16)]
  else [c]

/-- A string. -/
def stringChars (s : String) : List Char := '"' :: (s.toList.flatMap escapeChar ++ ['"'])

/-- A whole number. -/
def intChars (n : Int) : List Char := (toString n).toList

/-- A double. -/
def realChars (x : Binary64) : List Char :=
  if x.isFinite then FloatStyle.record.chars x else ['n', 'u', 'l', 'l']

/-- The octets of characters. -/
def octetsOfChars (cs : List Char) : Octets := cs.flatMap String.utf8EncodeChar

/-- Items between brackets, with commas between them. -/
def listChars (items : List (List Char)) : List Char :=
  '[' :: ((items.intersperse [',']).flatten ++ [']'])

/-- Entries between braces, with commas between them. -/
def objectChars (entries : List (String × List Char)) : List Char :=
  '{' :: (((entries.map fun e => stringChars e.1 ++ ':' :: e.2).intersperse [',']).flatten ++ ['}'])

end Telemetry.Json
