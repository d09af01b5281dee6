/-!
# White space

Which characters are white space is a table of the Unicode standard, not a rule.
Names, secrets, numbers and addresses are trimmed by it at both ends.
-/

namespace Telemetry

/-- White space of the Unicode standard. -/
def isBlank (c : Char) : Bool :=
  let n := c.toNat
  (9 ≤ n && n ≤ 13) || n == 0x20 || n == 0x85 || n == 0xA0 || n == 0x1680 ||
    (0x2000 ≤ n && n ≤ 0x200A) || n == 0x2028 || n == 0x2029 || n == 0x202F ||
    n == 0x205F || n == 0x3000

/-- Characters without the white space at either end. -/
def trimBlank (cs : List Char) : List Char :=
  ((cs.dropWhile isBlank).reverse.dropWhile isBlank).reverse

/-- Text without the white space at either end. -/
def trimText (s : String) : String := String.ofList (trimBlank s.toList)

/-- Nothing but white space? -/
def isBlankText (s : String) : Bool := s.toList.all isBlank

/-- The white space of core is white space. -/
theorem isBlank_of_isWhitespace {c : Char} (h : c.isWhitespace = true) : isBlank c = true := by
  simp only [Char.isWhitespace, Bool.or_eq_true, decide_eq_true_eq] at h
  rcases h with ((h | h) | h) | h <;> subst h <;> rfl

/-- Trimming leaves nothing exactly when there is nothing but white space. -/
theorem dropWhile_isBlank_eq_nil_iff (cs : List Char) :
    cs.dropWhile isBlank = [] ↔ cs.all isBlank = true := by
  induction cs with
  | nil => simp
  | cons c cs ih => by_cases h : isBlank c = true <;> simp [h, ih]

end Telemetry
