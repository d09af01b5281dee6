import Telemetry.Text.Printable

/-!
# Quoted text

How a message quotes a text it was given: between double quotes, with quotes,
backslashes and the common controls escaped by a letter and everything that
cannot be shown as it is by its number, so that the quotation is one line and
tells any two texts apart.
-/

namespace Telemetry

/-- The lower-case hexadecimal digits of a number. -/
def hexDigits (n : Nat) : List Char := Nat.toDigits 16 n

/-- One character inside quotes. -/
def quoteChar (c : Char) : List Char :=
  if c = '\x00' then ['\\', '0']
  else if c = '\t' then ['\\', 't']
  else if c = '\r' then ['\\', 'r']
  else if c = '\n' then ['\\', 'n']
  else if c = '\\' then ['\\', '\\']
  else if c = '"' then ['\\', '"']
  else if isShown c then [c]
  else '\\' :: 'u' :: '\x7b' :: (hexDigits c.toNat ++ ['\x7d'])

/-- A text between quotes. -/
def quote (s : String) : String :=
  String.ofList ('"' :: (s.toList.flatMap quoteChar ++ ['"']))

/-- The words that would have been taken, as a message enumerates them. -/
def oneOf : List String → String
  | [] => "there are no fields"
  | [a] => "expected `" ++ a ++ "`"
  | [a, b] => "expected `" ++ a ++ "` or `" ++ b ++ "`"
  | words => "expected one of " ++ ", ".intercalate (words.map fun a => "`" ++ a ++ "`")

end Telemetry
