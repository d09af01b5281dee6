/-!
# Octets and text

Bodies, files, keys and signatures are lists of octets, of which some are the
UTF-8 form of a text. The two directions:

* `octetsOf`: the UTF-8 form of a text;
* `textOf?`: the text that octets are the UTF-8 form of, if there is one;
* `behindInvalid`: where the first fault lies, if there is none.
-/

namespace Telemetry

/-- A body, a file, a key: octets in order. -/
abbrev Octets : Type := List UInt8

/-- The octet of an ASCII character. -/
abbrev ascii (c : Char) : UInt8 := c.toUInt8

/-- The UTF-8 form of a text. -/
def octetsOf (s : String) : Octets := s.toUTF8.data.toList

/-- The text that octets are the UTF-8 form of. -/
def textOf? (bs : Octets) : Option String := String.fromUTF8? ⟨bs.toArray⟩

/-- The text of characters that all are ASCII, octet by octet; other octets are
taken for the characters of their number. -/
def textOfAscii (bs : Octets) : String := String.ofList (bs.map fun b => Char.ofNat b.toNat)

/-! ### Where octets stop being text -/

/-- An octet that continues a character. -/
def isContinuation (b : UInt8) : Bool := 0x80 ≤ b && b ≤ 0xBF

/-- The second octets that a first one allows, from the least to the greatest: no
character has a longer form than it needs, none is a surrogate, and none lies beyond
the last code point. -/
def secondOctets (b : UInt8) : UInt8 × UInt8 :=
  if b = 0xE0 then (0xA0, 0xBF)
  else if b = 0xED then (0x80, 0x9F)
  else if b = 0xF0 then (0x90, 0xBF)
  else if b = 0xF4 then (0x80, 0x8F)
  else (0x80, 0xBF)

/-- The octets behind the character at their head, if there is one. -/
def dropCharacter? (bs : Octets) : Option Octets :=
  match bs with
  | [] => none
  | b :: rest =>
    let tail := if 0xC2 ≤ b ∧ b ≤ 0xDF then some 0
      else if 0xE0 ≤ b ∧ b ≤ 0xEF then some 1
      else if 0xF0 ≤ b ∧ b ≤ 0xF4 then some 2
      else none
    if b < 0x80 then some rest
    else match tail, rest with
      | some count, c :: rest =>
        let (low, high) := secondOctets b
        let found := rest.take count
        if low ≤ c ∧ c ≤ high ∧ found.length = count ∧ found.all isContinuation = true then
          some (rest.drop count)
        else none
      | _, _ => none

/-- The octets behind the first one that no character begins with. -/
def behindInvalid : (fuel : Nat) → Octets → Octets
  | 0, bs => bs.drop 1
  | fuel + 1, bs =>
    match dropCharacter? bs with
    | some rest => behindInvalid fuel rest
    | none => bs.drop 1

/-! ### Laws -/

/-- A text is read back from its UTF-8 form. -/
@[simp] theorem textOf?_octetsOf (s : String) : textOf? (octetsOf s) = some s := by
  have h : (⟨s.toUTF8.data.toList.toArray⟩ : ByteArray) = s.toUTF8 := rfl
  unfold textOf? octetsOf
  rw [h]
  unfold String.fromUTF8?
  exact (dif_pos s.isValidUTF8).trans rfl

/-- Different texts have different octets. -/
theorem octetsOf_injective {s t : String} (h : octetsOf s = octetsOf t) : s = t := by
  have := textOf?_octetsOf s
  rw [h, textOf?_octetsOf] at this
  exact (Option.some.inj this).symm

/-- The UTF-8 form of a text is that of its characters, one after the other. -/
theorem octetsOf_eq_flatMap (s : String) :
    octetsOf s = s.toList.flatMap String.utf8EncodeChar := by
  unfold octetsOf String.toUTF8
  rw [← String.utf8Encode_toList, List.utf8Encode]
  simp

@[simp] theorem octetsOf_append (s t : String) : octetsOf (s ++ t) = octetsOf s ++ octetsOf t := by
  simp [octetsOf_eq_flatMap]

@[simp] theorem octetsOf_empty : octetsOf "" = [] := rfl

end Telemetry
