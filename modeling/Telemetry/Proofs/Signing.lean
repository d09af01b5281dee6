import Mathlib
import Telemetry.Signature

/-!
# What counts as a signature

A digest is written in small digits, and a reader takes them in either case with white space
around them. Nothing else is taken: the text of a signature, trimmed and put into small letters,
is the very text that the holder of the secret writes. What carries this is that a digit has a
value exactly if its small form is the digit written for that value, so that pairs of digits are
the octets that they are written for.

* `hexDigitValue?_eq_some_iff`: one digit;
* `ofHexChars?_eq_some_iff`: pairs of digits;
* `isSignature_iff`, `isSignature_sign`: whole signatures;
* `Unpadded.trimBlank_append`, `trimBlank_append`, `exists_eq_append_trimBlank`: white space around
  a text;
* `judgesTexts`: which texts pass, and what becomes of all others.
-/

namespace Telemetry

/-! ### Digits -/

/-- Among the characters of ASCII, what has a value is a digit of either case. -/
theorem hexDigitValue?_ofNat :
    ∀ n < 128, ∀ v < 16, hexDigitValue? (Char.ofNat n) = some v ↔
      (Char.ofNat n).toLower = Nat.digitChar v := by
  decide +kernel

/-- Beyond ASCII there are no digits, and no capital letters. -/
theorem hexDigitValue?_of_le {c : Char} (hc : 128 ≤ c.toNat) :
    hexDigitValue? c = none ∧ c.toLower = c := by
  have hnot : ∀ b : Char, b.toNat < 128 → ¬c ≤ b := fun b hb hle =>
    absurd (show c.toNat ≤ b.toNat from hle) (by omega)
  constructor
  · rw [hexDigitValue?, if_neg fun h => hnot '9' (by decide) h.2,
      if_neg fun h => hnot 'F' (by decide) h.2, if_neg fun h => hnot 'f' (by decide) h.2]
  · unfold Char.toLower
    split
    · rename_i h
      exact absurd h.2 (hnot 'Z' (by decide))
    · rfl

/-- The values of digits are less than sixteen. -/
theorem hexDigitValue?_lt {c : Char} {v : Nat} (h : hexDigitValue? c = some v) : v < 16 := by
  have hascii : ∀ n < 128, (hexDigitValue? (Char.ofNat n)).all (· < 16) = true := by
    decide +kernel
  by_cases hc : c.toNat < 128
  · have hself := hascii c.toNat hc
    rw [Char.ofNat_toNat, h] at hself
    exact of_decide_eq_true hself
  · rw [(hexDigitValue?_of_le (Nat.not_lt.1 hc)).1] at h
    cases h

/-- **A digit has a value** exactly if its small form is written for that value. -/
theorem hexDigitValue?_eq_some_iff {c : Char} {v : Nat} :
    hexDigitValue? c = some v ↔ v < 16 ∧ c.toLower = Nat.digitChar v := by
  by_cases hc : c.toNat < 128
  · have hself := hexDigitValue?_ofNat c.toNat hc
    rw [Char.ofNat_toNat] at hself
    exact ⟨fun h => ⟨hexDigitValue?_lt h, (hself v (hexDigitValue?_lt h)).1 h⟩,
      fun h => (hself v h.1).2 h.2⟩
  · obtain ⟨hnone, hlower⟩ := hexDigitValue?_of_le (Nat.not_lt.1 hc)
    rw [hnone, hlower]
    refine ⟨nofun, ?_⟩
    rintro ⟨hv, rfl⟩
    have hdigit : ∀ v < 16, (Nat.digitChar v).toNat < 128 := by decide
    exact absurd (hdigit v hv) hc

/-! ### Pairs of digits -/

/-- The two digits of an octet are those of its halves. -/
theorem hexPair_of_halves {a b : Nat} (ha : a < 16) (hb : b < 16) :
    hexPair (16 * a + b).toUInt8 = [Nat.digitChar a, Nat.digitChar b] := by
  have hn : (16 * a + b).toUInt8.toNat = 16 * a + b := by
    simp only [Nat.toUInt8, UInt8.toNat_ofNat']
    omega
  have hhigh : (16 * a + b) / 16 = a := by omega
  have hlow : (16 * a + b) % 16 = b := by omega
  rw [hexPair, hn, hhigh, hlow]

/-- **Pairs of digits are taken for octets** exactly if their small forms are written for those
octets. -/
theorem ofHexChars?_eq_some_iff {cs : List Char} {bs : Octets} :
    ofHexChars? cs = some bs ↔ cs.map Char.toLower = bs.flatMap hexPair := by
  induction cs using List.twoStepInduction generalizing bs with
  | nil =>
    cases bs with
    | nil => simp [ofHexChars?]
    | cons b bs => simp [ofHexChars?, hexPair]
  | singleton c =>
    cases bs with
    | nil => simp [ofHexChars?]
    | cons b bs => simp [ofHexChars?, hexPair]
  | cons_cons x y rest ih =>
    constructor
    · intro h
      rw [ofHexChars?] at h
      split at h
      · rename_i a b tail ha hb htail
        obtain rfl := Option.some.inj h
        obtain ⟨ha, hx⟩ := hexDigitValue?_eq_some_iff.1 ha
        obtain ⟨hb, hy⟩ := hexDigitValue?_eq_some_iff.1 hb
        rw [List.flatMap_cons, hexPair_of_halves ha hb, ← ih.1 htail, ← hx, ← hy]
        rfl
      · cases h
    · intro h
      cases bs with
      | nil => cases h
      | cons b bs =>
        have hlt := b.toNat_lt
        simp only [List.map_cons, List.flatMap_cons, hexPair, List.cons_append, List.nil_append,
          List.cons.injEq] at h
        obtain ⟨hx, hy, hrest⟩ := h
        have hx := hexDigitValue?_eq_some_iff.2 ⟨by omega, hx⟩
        have hy := hexDigitValue?_eq_some_iff.2 ⟨by omega, hy⟩
        have hback : (16 * (b.toNat / 16) + b.toNat % 16).toUInt8 = b := by
          rw [Nat.div_add_mod]
          exact UInt8.ofNat_toNat
        simp only [ofHexChars?, hx, hy, ih.2 hrest, hback]

/-- What is written for octets is small digits. -/
theorem exists_digit_of_mem {bs : Octets} {c : Char} (hc : c ∈ bs.flatMap hexPair) :
    ∃ v < 16, c = Nat.digitChar v := by
  obtain ⟨b, -, hb⟩ := List.mem_flatMap.1 hc
  have hlt := b.toNat_lt
  simp only [hexPair, List.mem_cons, List.not_mem_nil, or_false] at hb
  rcases hb with rfl | rfl
  · exact ⟨_, by omega, rfl⟩
  · exact ⟨_, by omega, rfl⟩

/-- **What is written for octets is taken for them.** -/
theorem ofHexChars?_flatMap_hexPair (bs : Octets) : ofHexChars? (bs.flatMap hexPair) = some bs := by
  have hlower : ∀ v < 16, (Nat.digitChar v).toLower = Nat.digitChar v := by decide
  rw [ofHexChars?_eq_some_iff]
  refine (List.map_congr_left fun c hc => ?_).trans (List.map_id _)
  obtain ⟨v, hv, rfl⟩ := exists_digit_of_mem hc
  exact hlower v hv

/-- Different octets are written with different digits. -/
theorem hexOf_injective {as bs : Octets} (h : hexOf as = hexOf bs) : as = bs := by
  have hread := ofHexChars?_flatMap_hexPair as
  rw [String.ofList_injective h, ofHexChars?_flatMap_hexPair] at hread
  exact (Option.some.inj hread).symm

/-! ### Signatures -/

/-- **A text is the signature of a body** exactly if, without the white space around it and in
small letters, it is the one that is written. -/
theorem isSignature_iff {secret body : Octets} {text : String} :
    isSignature secret body text = true ↔
      (trimBlank text.toList).map Char.toLower = (sign secret body).toList := by
  rw [isSignature, beq_iff_eq, ofHexChars?_eq_some_iff, sign, hexOf, String.toList_ofList]

/-- Where the first character is not white space nothing is dropped. -/
theorem dropWhile_isBlank_eq_self {cs : List Char} (h : ∀ c ∈ cs.head?, isBlank c = false) :
    cs.dropWhile isBlank = cs := by
  cases cs with
  | nil => rfl
  | cons c cs => exact List.dropWhile_cons_of_neg (by rw [h c rfl]; decide)

/-- There is no white space at either end. -/
def Unpadded (cs : List Char) : Prop :=
  (∀ c ∈ cs.head?, isBlank c = false) ∧ ∀ c ∈ cs.getLast?, isBlank c = false

/-- **White space around a text is trimmed**, and nothing between its ends. -/
theorem Unpadded.trimBlank_append {before cs behind : List Char} (hcs : Unpadded cs)
    (hbefore : ∀ c ∈ before, isBlank c = true) (hbehind : ∀ c ∈ behind, isBlank c = true) :
    trimBlank (before ++ (cs ++ behind)) = cs := by
  have hreversed : ∀ c ∈ behind.reverse, isBlank c = true := fun c hc =>
    hbehind c (List.mem_reverse.1 hc)
  rw [trimBlank, List.dropWhile_append_of_pos hbefore]
  cases cs with
  | nil =>
    rw [List.nil_append, (dropWhile_isBlank_eq_nil_iff behind).2 (List.all_eq_true.2 hbehind)]
    rfl
  | cons c cs =>
    have hlast : ∀ d ∈ (c :: cs).reverse.head?, isBlank d = false := by
      rw [List.head?_reverse]
      exact hcs.2
    have hfirst : (c :: cs ++ behind).dropWhile isBlank = c :: cs ++ behind :=
      dropWhile_isBlank_eq_self hcs.1
    rw [hfirst, List.reverse_append, List.dropWhile_append_of_pos hreversed,
      dropWhile_isBlank_eq_self hlast, List.reverse_reverse]

/-- Where there is no white space at the ends there is none to trim. -/
theorem Unpadded.trimBlank_eq_self {cs : List Char} (h : Unpadded cs) : trimBlank cs = cs := by
  have hwhole : trimBlank ([] ++ (cs ++ [])) = cs := h.trimBlank_append nofun nofun
  rwa [List.append_nil, List.nil_append] at hwhole

theorem unpadded_of_forall {cs : List Char} (h : ∀ c ∈ cs, isBlank c = false) : Unpadded cs :=
  ⟨fun c hc => h c (List.mem_of_head? hc), fun c hc => h c (List.mem_of_getLast? hc)⟩

/-- **White space around other characters is trimmed**, and nothing else. -/
theorem trimBlank_append {before cs behind : List Char} (hbefore : ∀ c ∈ before, isBlank c = true)
    (hcs : ∀ c ∈ cs, isBlank c = false) (hbehind : ∀ c ∈ behind, isBlank c = true) :
    trimBlank (before ++ (cs ++ behind)) = cs :=
  (unpadded_of_forall hcs).trimBlank_append hbefore hbehind

/-- What is trimmed is white space. -/
theorem exists_eq_append_trimBlank (cs : List Char) :
    ∃ before behind, cs = before ++ (trimBlank cs ++ behind) ∧
      (∀ c ∈ before, isBlank c = true) ∧ ∀ c ∈ behind, isBlank c = true := by
  refine ⟨cs.takeWhile isBlank,
    ((cs.dropWhile isBlank).reverse.takeWhile isBlank).reverse, ?_, fun c hc => ?_, fun c hc => ?_⟩
  · rw [trimBlank, ← List.reverse_append, List.takeWhile_append_dropWhile, List.reverse_reverse,
      List.takeWhile_append_dropWhile]
  · exact List.mem_takeWhile_imp hc
  · exact List.mem_takeWhile_imp (List.mem_reverse.1 hc)

/-- **What is written for a body is its signature.** -/
theorem isSignature_sign (secret body : Octets) :
    isSignature secret body (sign secret body) = true := by
  have hblank : ∀ v < 16, isBlank (Nat.digitChar v) = false := by decide
  rw [isSignature, sign, hexOf, String.toList_ofList, (unpadded_of_forall ?_).trimBlank_eq_self,
    ofHexChars?_flatMap_hexPair, beq_self_eq_true]
  intro c hc
  obtain ⟨v, hv, rfl⟩ := exists_digit_of_mem hc
  exact hblank v hv

theorem verify_sign (secret body : Octets) : verify secret body (sign secret body) = .ok () := by
  rw [verify, if_pos (isSignature_sign secret body)]

/-! ### Which texts pass -/

/-- The digits that are written. -/
def smallDigits : List Char := "0123456789abcdef".toList

theorem mem_smallDigits_of_mem_sign {secret body : Octets} {c : Char}
    (hc : c ∈ (sign secret body).toList) : c ∈ smallDigits := by
  have hdigit : ∀ v < 16, Nat.digitChar v ∈ smallDigits := by decide
  rw [sign, hexOf, String.toList_ofList] at hc
  obtain ⟨v, hv, rfl⟩ := exists_digit_of_mem hc
  exact hdigit v hv

/-- Two digits are written for each octet of the digest. -/
theorem length_sign (secret body : Octets) : (sign secret body).length = 64 := by
  have hpair : ∀ b : UInt8, (hexPair b).length = 2 := fun _ => rfl
  rw [sign, hexOf, String.length_ofList, List.length_flatMap, List.map_congr_left fun b _ => hpair b,
    List.map_const', List.sum_replicate, length_keyedDigest]
  rfl

/-- A digit of either case is no white space. -/
theorem isBlank_eq_false_of_toLower {c : Char} {v : Nat} (hv : v < 16)
    (h : c.toLower = Nat.digitChar v) : isBlank c = false := by
  have hascii : ∀ n < 128, hexDigitValue? (Char.ofNat n) = none ∨ isBlank (Char.ofNat n) = false := by
    decide +kernel
  have hvalue := hexDigitValue?_eq_some_iff.2 ⟨hv, h⟩
  by_cases hc : c.toNat < 128
  · have hself := hascii c.toNat hc
    rw [Char.ofNat_toNat, hvalue] at hself
    exact hself.resolve_left nofun
  · rw [(hexDigitValue?_of_le (Nat.not_lt.1 hc)).1] at hvalue
    cases hvalue

/-- **Which texts pass for the signature of a body.** -/
structure JudgesTexts (secret body : Octets) : Prop where
  /-- What is written is two digits for each of the 32 octets of the digest. -/
  written : (sign secret body).length = 64 ∧ ∀ c ∈ (sign secret body).toList, c ∈ smallDigits
  /-- A text passes exactly if it is what is written, but for the white space around it and for
  capital letters, -/
  passes_iff (text : String) : verify secret body text = .ok () ↔
    (trimText text).map Char.toLower = sign secret body
  /-- that is, if these digits stand in it with nothing but white space around them. -/
  passes_iff_exists (text : String) : verify secret body text = .ok () ↔
    ∃ before digits behind, text = before ++ digits ++ behind ∧ isBlankText before = true ∧
      isBlankText behind = true ∧ digits.map Char.toLower = sign secret body
  /-- Whatever else it is, the failure is the same. -/
  fails (text : String) : (trimText text).map Char.toLower ≠ sign secret body →
    verify secret body text = .error .badDataHash
  /-- So a text with more or fewer digits fails, and so does one with other characters. -/
  fails_of_digits (text : String) : (trimText text).length ≠ 64 ∨
      (∃ c ∈ (trimText text).toList, c.toLower ∉ smallDigits) →
    verify secret body text = .error .badDataHash

/-- A text passes if it is the signature, and fails otherwise. -/
theorem verify_eq (secret body : Octets) (text : String) :
    verify secret body text =
      if (trimText text).map Char.toLower = sign secret body then .ok ()
      else .error .badDataHash := by
  have hpasses : isSignature secret body text = true ↔
      (trimText text).map Char.toLower = sign secret body := by
    rw [isSignature_iff, ← String.toList_inj, String.toList_map, trimText, String.toList_ofList]
  simp only [verify, hpasses]

/-- A text is what stands between its white space. -/
theorem map_trimText_eq_sign_iff {secret body : Octets} {text : String} :
    (trimText text).map Char.toLower = sign secret body ↔
      ∃ before digits behind, text = before ++ digits ++ behind ∧ isBlankText before = true ∧
        isBlankText behind = true ∧ digits.map Char.toLower = sign secret body := by
  constructor
  · intro h
    obtain ⟨before, behind, htext, hbefore, hbehind⟩ := exists_eq_append_trimBlank text.toList
    refine ⟨String.ofList before, trimText text, String.ofList behind, ?_, ?_, ?_, h⟩
    · rw [← String.toList_inj, String.toList_append, String.toList_append, String.toList_ofList,
        String.toList_ofList, trimText, String.toList_ofList, List.append_assoc]
      exact htext
    · rwa [isBlankText, String.toList_ofList, List.all_eq_true]
    · rwa [isBlankText, String.toList_ofList, List.all_eq_true]
  · rintro ⟨before, digits, behind, rfl, hbefore, hbehind, hsign⟩
    have hdigits : ∀ c ∈ digits.toList, isBlank c = false := by
      intro c hc
      have hlower : c.toLower ∈ (sign secret body).toList := by
        rw [← hsign, String.toList_map]
        exact List.mem_map_of_mem hc
      rw [sign, hexOf, String.toList_ofList] at hlower
      obtain ⟨v, hv, hdigit⟩ := exists_digit_of_mem hlower
      exact isBlank_eq_false_of_toLower hv hdigit
    rw [trimText, String.toList_append, String.toList_append, List.append_assoc,
      trimBlank_append (List.all_eq_true.1 hbefore) hdigits (List.all_eq_true.1 hbehind),
      String.ofList_toList]
    exact hsign

/-- **Every check of a signature** judges texts so, whatever the secret and the body. -/
theorem judgesTexts (secret body : Octets) : JudgesTexts secret body where
  written := ⟨length_sign secret body, fun _ => mem_smallDigits_of_mem_sign⟩
  passes_iff text := by
    rw [verify_eq]
    split <;> simp [*]
  passes_iff_exists text := by
    rw [← map_trimText_eq_sign_iff, verify_eq]
    split <;> simp [*]
  fails text h := by
    rw [verify_eq, if_neg h]
  fails_of_digits text h := by
    rw [verify_eq, if_neg]
    intro hsign
    rcases h with hlength | ⟨c, hc, hother⟩
    · rw [← String.length_map (f := Char.toLower), hsign, length_sign] at hlength
      exact hlength rfl
    · have hwritten : c.toLower ∈ (sign secret body).toList := by
        rw [← hsign, String.toList_map]
        exact List.mem_map_of_mem hc
      exact hother (mem_smallDigits_of_mem_sign hwritten)

/-- Capital letters and white space do no harm. -/
example : verify (octetsOf "key") (octetsOf "The quick brown fox jumps over the lazy dog")
    " F7bc83f430538424b13298e6aa6fb143ef4d59a14946175997479dbc2d1a3CD8\n" = .ok () := by
  decide +kernel

end Telemetry
