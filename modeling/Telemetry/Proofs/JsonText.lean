import Mathlib
import Telemetry.Json.Value
import Telemetry.Json.Write

/-!
# Octets between quotes

Between quotes a character is spelled in one of three ways - as it is, behind a backslash, or by its
number - and the reader takes each of them for the octets of that character, so that what it has
gathered at the closing quote is the UTF-8 form of the string.

The reader gets the text a second time as fuel and burns one octet of it in each turn.
How much is burned does not matter as long as enough is left, so the statements are for
any fuel that is long enough, and a character leaves behind what it did not burn.

* `octetsOfChars_toList`: the octets of the characters of a text;
* `isPlain_of_mem`, `readQuoted_plain`: a character as it is;
* `readQuoted_escape`: an escape.
-/

namespace Telemetry.Json

/-! ### Octets of characters -/

@[simp] theorem octetsOfChars_nil : octetsOfChars [] = [] := rfl

theorem octetsOfChars_cons (c : Char) (cs : List Char) :
    octetsOfChars (c :: cs) = String.utf8EncodeChar c ++ octetsOfChars cs := List.flatMap_cons

@[simp] theorem octetsOfChars_append (cs ds : List Char) :
    octetsOfChars (cs ++ ds) = octetsOfChars cs ++ octetsOfChars ds := List.flatMap_append

/-- The characters of a text have the octets of the text. -/
theorem octetsOfChars_toList (s : String) : octetsOfChars s.toList = octetsOf s :=
  (octetsOf_eq_flatMap s).symm

/-- An octet that stands for itself between quotes. -/
def IsPlain (b : UInt8) : Prop := b ≠ ascii '"' ∧ b ≠ ascii '\\' ∧ ¬b < 32

/-- **A character that needs no escape has plain octets only**: those of ASCII are the
characters themselves, and all others are beyond ASCII. -/
theorem isPlain_of_mem {c : Char} (hquote : c ≠ '"') (hslash : c ≠ '\\') (hc : 32 ≤ c.toNat)
    {b : UInt8} (hb : b ∈ String.utf8EncodeChar c) : IsPlain b := by
  have hplain : ∀ n : Nat, 32 ≤ n → n < 256 → n ≠ 34 → n ≠ 92 → IsPlain (UInt8.ofNat n) := by
    intro n h32 h256 h34 h92
    have hn : (UInt8.ofNat n).toNat = n := UInt8.toNat_ofNat_of_lt' h256
    refine ⟨fun hc => ?_, fun hc => ?_, fun hc => ?_⟩
    · exact h34 (hn ▸ congrArg UInt8.toNat hc)
    · exact h92 (hn ▸ congrArg UInt8.toNat hc)
    · have := UInt8.lt_iff_toNat_lt.1 hc
      rw [hn] at this
      exact absurd this (Nat.not_lt.2 h32)
  have h34 : c.val.toNat ≠ 34 := fun he => hquote (Char.ext (UInt32.toNat_inj.1 he))
  have h92 : c.val.toNat ≠ 92 := fun he => hslash (Char.ext (UInt32.toNat_inj.1 he))
  have hc' : 32 ≤ c.val.toNat := hc
  unfold String.utf8EncodeChar at hb
  simp only at hb
  split at hb
  · rw [List.mem_singleton.1 hb]
    exact hplain _ hc' (by omega) h34 h92
  · -- the octets of a longer form are all at least 128
    split at hb
    · simp only [List.mem_cons, List.not_mem_nil, or_false] at hb
      rcases hb with rfl | rfl <;> exact hplain _ (by omega) (by omega) (by omega) (by omega)
    · split at hb
      · simp only [List.mem_cons, List.not_mem_nil, or_false] at hb
        rcases hb with rfl | rfl | rfl <;>
          exact hplain _ (by omega) (by omega) (by omega) (by omega)
      · simp only [List.mem_cons, List.not_mem_nil, or_false] at hb
        rcases hb with rfl | rfl | rfl | rfl <;>
          exact hplain _ (by omega) (by omega) (by omega) (by omega)

/-! ### One character -/

/-- Plain octets are taken as they are. -/
theorem readQuoted_plain {bs : Octets} (hbs : ∀ b ∈ bs, IsPlain b) (before text : Octets)
    {fuel : Octets} (hfuel : bs.length ≤ fuel.length) :
    ∃ left : Octets, fuel.length ≤ left.length + bs.length ∧
      readQuoted fuel before (bs ++ text) = readQuoted left (bs.reverse ++ before) text := by
  induction bs generalizing fuel before with
  | nil => exact ⟨fuel, Nat.le_refl _, rfl⟩
  | cons b bs ih =>
    cases fuel with
    | nil => simp at hfuel
    | cons f fuel =>
      obtain ⟨hquote, hslash, hcontrol⟩ := hbs b List.mem_cons_self
      obtain ⟨left, hleft, hread⟩ := ih (fun x hx => hbs x (List.mem_cons_of_mem _ hx))
        (b :: before) (Nat.le_of_succ_le_succ hfuel)
      refine ⟨left, by simp only [List.length_cons]; omega, ?_⟩
      rw [List.cons_append, readQuoted, if_neg hquote, if_neg hslash, if_neg hcontrol, hread,
        List.reverse_cons, List.append_assoc]
      rfl

/-- An escape burns one octet of fuel, however long it is. -/
theorem readQuoted_escape {tail octets text : Octets} (before : Octets)
    (hread : readEscape (tail ++ text) = .ok (octets, text)) {fuel : Octets}
    (hfuel : (ascii '\\' :: tail).length ≤ fuel.length) :
    ∃ left : Octets, fuel.length ≤ left.length + (ascii '\\' :: tail).length ∧
      readQuoted fuel before (ascii '\\' :: tail ++ text) =
        readQuoted left (octets.reverse ++ before) text := by
  cases fuel with
  | nil => simp at hfuel
  | cons f fuel =>
    refine ⟨fuel, by simp only [List.length_cons]; omega, ?_⟩
    rw [List.cons_append, readQuoted, if_neg (by decide), if_pos rfl, hread]

/-- The octets of a string, quotes and all. -/
theorem octetsOfChars_stringChars (s : String) :
    octetsOfChars (stringChars s) =
      ascii '"' :: (octetsOfChars (s.toList.flatMap escapeChar) ++ [ascii '"']) := by
  rw [stringChars, octetsOfChars_cons, octetsOfChars_append]
  rfl

/-- A text that does not begin with white space. -/
theorem skipSpace_cons {b : UInt8} (hb : isSpace b = false) (text : Octets) :
    skipSpace (b :: text) = b :: text := by
  simp [skipSpace, hb]

end Telemetry.Json
