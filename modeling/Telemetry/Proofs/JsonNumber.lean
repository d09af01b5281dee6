import Mathlib
import Telemetry.Proofs.JsonText
import Telemetry.Proofs.Results

/-!
# Digits

A number is written in decimal digits, and the reader gathers digits into the number that they
write. It does so as far as 64 bits hold that number, and provided that what follows does not go on
with it: no digit, no point and no letter of an exponent.

* `Stops`: a text that does not go on with a number in front of it;
* `digitsBehind`: the number that digits write;
* `readNumber_digits`: digits at the head of a text;
* `int64_cases`, `intChars_natCast`: the digits of a whole number of 64 bits;
* `Binary64.ReadsBack`: the doubles that come back from their own text.
-/

namespace Telemetry.Json

/-! ### What stops a number -/

/-- A text that does not go on with a number in front of it. -/
def Stops (text : Octets) : Prop := startsWithDigit text = false ∧ startsTail text = false

/-- Commas, and the ends of lists and objects, stop a number. -/
theorem stops_cons {b : UInt8} (hb : b = ascii ',' ∨ b = ascii ']' ∨ b = ascii '}')
    (text : Octets) : Stops (b :: text) := by
  rcases hb with rfl | rfl | rfl <;> exact ⟨rfl, rfl⟩

/-- An octet in front of which digits stop has no value as a digit. -/
theorem octetDigit?_head {more text : Octets} {b : UInt8} (hmore : startsWithDigit more = false)
    (h : more = b :: text) : octetDigit? b = none := by
  have hb : isOctetDigit b = false := by
    subst h
    exact hmore
  unfold octetDigit?
  rw [if_neg]
  rintro ⟨h48, h57⟩
  simp [isOctetDigit, h48, h57] at hb

/-! ### Whole numbers -/

/-- A digit is one octet. -/
theorem utf8EncodeChar_digitChar :
    ∀ d < 10, String.utf8EncodeChar (Nat.digitChar d) = [ascii (Nat.digitChar d)] := by decide

/-- The octet of a digit has the value of the digit. -/
theorem octetDigit?_digitChar : ∀ d < 10, octetDigit? (ascii (Nat.digitChar d)) = some d := by
  decide

/-- The number that digits write behind a number. -/
def digitsBehind (m : Nat) (ds : List Nat) : Nat := ds.foldl (fun n d => 10 * n + d) m

theorem le_digitsBehind (m : Nat) (ds : List Nat) : m ≤ digitsBehind m ds := by
  induction ds generalizing m with
  | nil => exact Nat.le_refl m
  | cons d ds ih => exact Nat.le_trans (by omega) (ih (10 * m + d))

/-- **A positive number is written** with a first digit that is not zero. -/
theorem toDigits_eq_cons {n : Nat} (hn : 0 < n) :
    ∃ d ds, 0 < d ∧ d < 10 ∧ (∀ x ∈ ds, x < 10) ∧
      Nat.toDigits 10 n = Nat.digitChar d :: ds.map Nat.digitChar ∧ digitsBehind d ds = n := by
  induction n using Nat.strong_induction_on with
  | _ n ih =>
    by_cases hlt : n < 10
    · exact ⟨n, [], hn, hlt, by simp, Nat.toDigits_of_lt_base hlt, rfl⟩
    · obtain ⟨d, ds, hd0, hd, hds, htext, hvalue⟩ := ih (n / 10) (by omega) (by omega)
      refine ⟨d, ds ++ [n % 10], hd0, hd, ?_, ?_, ?_⟩
      · intro x hx
        rcases List.mem_append.1 hx with hx | hx
        · exact hds x hx
        · rw [List.mem_singleton.1 hx]
          exact Nat.mod_lt n (by omega)
      · rw [Nat.toDigits_of_base_le (by omega) (by omega), htext, List.map_append]
        rfl
      · have happend : digitsBehind d (ds ++ [n % 10]) = 10 * digitsBehind d ds + n % 10 := by
          simp [digitsBehind]
        rw [happend, hvalue]
        omega

theorem octetsOfChars_digits {d : Nat} (hd : d < 10) (cs : List Char) :
    octetsOfChars (Nat.digitChar d :: cs) = ascii (Nat.digitChar d) :: octetsOfChars cs := by
  rw [octetsOfChars_cons, utf8EncodeChar_digitChar d hd]
  rfl

/-- Digits are taken for as long as 64 bits hold the number. -/
theorem gatherDigits_digits {rest : Octets} (hrest : startsWithDigit rest = false) {ds : List Nat}
    (hds : ∀ x ∈ ds, x < 10) (m taken : Nat) (hlt : digitsBehind m ds < Nat.pow 2 64) :
    gatherDigits m taken (octetsOfChars (ds.map Nat.digitChar) ++ rest) =
      (digitsBehind m ds, taken + ds.length, rest) := by
  induction ds generalizing m taken with
  | nil =>
    cases hr : rest with
    | nil => rfl
    | cons b behind =>
      show gatherDigits m taken (b :: behind) = _
      rw [gatherDigits, octetDigit?_head hrest hr]
      rfl
  | cons d ds ih =>
    have hd : d < 10 := hds d List.mem_cons_self
    have hstep : 10 * m + d < Nat.pow 2 64 := Nat.lt_of_le_of_lt (le_digitsBehind _ ds) hlt
    rw [List.map_cons, octetsOfChars_digits hd, List.cons_append, gatherDigits,
      octetDigit?_digitChar d hd]
    simp only
    rw [if_pos hstep, ih (fun x hx => hds x (List.mem_cons_of_mem d hx)) _ _ hlt,
      List.length_cons, Nat.add_right_comm, Nat.add_assoc]
    rfl

/-- Digits of which the first is not zero are read as the whole part that they write. -/
theorem readNumber_cons {rest : Octets} (hrest : startsWithDigit rest = false) (positive : Bool)
    {d : Nat} (hd0 : 0 < d) (hd : d < 10) {ds : List Nat} (hds : ∀ x ∈ ds, x < 10)
    (hlt : digitsBehind d ds < Nat.pow 2 64) :
    readNumber positive (octetsOfChars ((d :: ds).map Nat.digitChar) ++ rest) =
      readWhole positive (digitsBehind d ds) rest := by
  rw [List.map_cons, octetsOfChars_digits hd, List.cons_append, readNumber,
    octetDigit?_digitChar d hd]
  obtain ⟨e, rfl⟩ : ∃ e, d = e + 1 := ⟨d - 1, by omega⟩
  simp only
  rw [gatherDigits_digits hrest hds _ _ hlt]
  simp only
  rw [hrest]
  rfl

/-- **A number is read back** from its digits, as the whole part that it is. -/
theorem readNumber_digits {rest : Octets} (hrest : startsWithDigit rest = false) (positive : Bool)
    {n : Nat} (hn : n < Nat.pow 2 64) :
    readNumber positive (octetsOfChars (Nat.toDigits 10 n) ++ rest) =
      readWhole positive n rest := by
  rcases Nat.eq_zero_or_pos n with rfl | hpos
  · show readNumber positive (ascii '0' :: rest) = _
    rw [readNumber, show octetDigit? (ascii '0') = some 0 from rfl]
    simp only
    rw [hrest]
    rfl
  · obtain ⟨d, ds, hd0, hd, hds, htext, rfl⟩ := toDigits_eq_cons hpos
    rw [htext, ← List.map_cons]
    exact readNumber_cons hrest positive hd0 hd hds hn

/-- What a digit is not. -/
theorem digit_head : ∀ d < 10, isSpace (ascii (Nat.digitChar d)) = false ∧
    isOctetDigit (ascii (Nat.digitChar d)) = true ∧ ascii (Nat.digitChar d) ≠ ascii '-' ∧
      ascii (Nat.digitChar d) ≠ ascii 'n' := by
  decide

/-- A whole number of 64 bits is a natural number or the opposite of one, which may be larger by
one. -/
theorem int64_cases (n : Int64) :
    (∃ k : Nat, k < Nat.pow 2 63 ∧ n.toInt = k) ∨
      ∃ k : Nat, k ≠ 0 ∧ k ≤ Nat.pow 2 63 ∧ n.toInt = -(k : Int) := by
  have hmin := n.le_toInt
  have hmax := n.toInt_lt
  by_cases hsign : 0 ≤ n.toInt
  · obtain ⟨k, hk⟩ := Int.eq_ofNat_of_zero_le hsign
    refine .inl ⟨k, ?_, hk⟩
    rw [hk] at hmax
    exact_mod_cast hmax
  · refine .inr ⟨(-n.toInt).toNat, by omega, ?_, by omega⟩
    have hle : ((-n.toInt).toNat : Int) ≤ 2 ^ 63 := by omega
    exact_mod_cast hle

theorem intChars_natCast (k : Nat) : intChars (k : Int) = Nat.toDigits 10 k := by
  rw [intChars, Int.toString_eq_repr, Int.repr_eq_if, if_pos (Int.natCast_nonneg k),
    Int.toNat_natCast, Nat.toList_repr]

theorem intChars_neg_natCast {k : Nat} (hk : k ≠ 0) :
    intChars (-(k : Int)) = '-' :: Nat.toDigits 10 k := by
  have hsign : ¬0 ≤ -(k : Int) := by omega
  rw [intChars, Int.toString_eq_repr, Int.repr_eq_if, if_neg hsign, Int.neg_neg,
    Int.toNat_natCast, String.toList_append, Nat.toList_repr]
  rfl

end Telemetry.Json

namespace Telemetry

open Json

/-- A finite double that is read back, unchanged, from the text that is written for it. -/
def Binary64.ReadsBack (x : Binary64) : Prop :=
  x.isFinite = true ∧ readReal (octetsOfChars (realChars x)) = .ok (x, [])

instance (x : Binary64) : Decidable x.ReadsBack := inferInstanceAs (Decidable (_ ∧ _))

end Telemetry
