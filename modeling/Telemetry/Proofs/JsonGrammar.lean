import Mathlib
import Telemetry.Proofs.JsonNumerals

/-!
# The grammar of JSON

A JSON text is told here by what it spells: a tree of values, with white space between any two
tokens, strings with any mixture of plain characters and escapes, and numerals.

A string may contain escapes by number that are halves of surrogate pairs. Two of them in a row may
be one character. A half that stands alone stands for nothing, and then the whole string is no text.

* `Piece`, `textOf`: what stands between quotes, and the text that it is;
* `Tree`, `Spells`, `IsText`: the values, their characters, and the octets of a whole text;
* `readEscape_short`, `readEscape_unit`, `readTrailing_unit`: one escape;
* `readChars_pieces`: a string in any of its spellings.
-/

namespace Telemetry.Json

/-! ### The grammar of strings -/

/-- A hexadecimal digit in either case. -/
structure HexDigit where
  /-- Its value. -/
  value : Nat
  /-- There are sixteen. -/
  lt : value < 16
  /-- Is it a capital, if it is a letter? -/
  capital : Bool
deriving DecidableEq

/-- The character of a hexadecimal digit. -/
def HexDigit.char (d : HexDigit) : Char :=
  if d.capital then (hexDigit d.value).toUpper else hexDigit d.value

/-- A number of 16 bits by its four digits. -/
structure CodeUnit where
  /-- The digit in front. -/
  first : HexDigit
  /-- The next one. -/
  second : HexDigit
  /-- And the next one. -/
  third : HexDigit
  /-- The digit at the end. -/
  fourth : HexDigit
deriving DecidableEq

/-- The number that the four digits write. -/
def CodeUnit.value (u : CodeUnit) : Nat :=
  ((u.first.value * 16 + u.second.value) * 16 + u.third.value) * 16 + u.fourth.value

/-- The characters of the four digits. -/
def CodeUnit.chars (u : CodeUnit) : List Char :=
  [u.first.char, u.second.char, u.third.char, u.fourth.char]

/-- The first half of a surrogate pair. -/
def CodeUnit.Leading (u : CodeUnit) : Prop := 0xD800 ≤ u.value ∧ u.value ≤ 0xDBFF

/-- The second half of a surrogate pair. -/
def CodeUnit.Trailing (u : CodeUnit) : Prop := 0xDC00 ≤ u.value ∧ u.value ≤ 0xDFFF

instance (u : CodeUnit) : Decidable u.Leading := inferInstanceAs (Decidable (_ ∧ _))

instance (u : CodeUnit) : Decidable u.Trailing := inferInstanceAs (Decidable (_ ∧ _))

/-- The characters that may stand behind a backslash, each with the one that it stands for. -/
def shortEscapes : List (Char × Char) :=
  [('"', '"'), ('\\', '\\'), ('/', '/'), ('b', '\x08'), ('f', '\x0c'), ('n', '\n'), ('r', '\r'),
    ('t', '\t')]

/-- One of the pieces of which a string is made up. -/
inductive Piece where
  /-- A character as it is. It is no quote, no backslash and no control. -/
  | plain (c : Char) (quote : c ≠ '"') (slash : c ≠ '\\') (control : 32 ≤ c.toNat)
  /-- A character behind a backslash, and the one that it stands for. -/
  | short (letter stands : Char) (h : (letter, stands) ∈ shortEscapes)
  /-- A character by its number, or half of one. -/
  | unit (u : CodeUnit)

/-- The characters of a piece. -/
def Piece.chars : Piece → List Char
  | .plain c _ _ _ => [c]
  | .short letter _ _ => ['\\', letter]
  | .unit u => '\\' :: 'u' :: u.chars

/-- The character of a surrogate pair. -/
def pairChar (u v : CodeUnit) : Char :=
  Char.ofNat (0x10000 + (u.value - 0xD800) * 0x400 + (v.value - 0xDC00))

/-- The characters that pieces stand for, unless there is half of a surrogate pair among them
without the other half. -/
def charsOf? : List Piece → Option (List Char)
  | [] => some []
  | .plain c _ _ _ :: ps => (charsOf? ps).map (c :: ·)
  | .short _ c _ :: ps => (charsOf? ps).map (c :: ·)
  | .unit u :: ps =>
    if u.Trailing then none
    else if u.Leading then
      match ps with
      | .unit v :: ps => if v.Trailing then (charsOf? ps).map (pairChar u v :: ·) else none
      | _ => none
    else (charsOf? ps).map (Char.ofNat u.value :: ·)

/-- **The text that pieces are**, if they are one. -/
def textOf (ps : List Piece) : Option String := (charsOf? ps).map String.ofList

/-- The characters of pieces between quotes. -/
def quoted (ps : List Piece) : List Char := '"' :: (ps.flatMap Piece.chars ++ ['"'])

/-! ### The grammar of values -/

/-- White space. -/
def Blank (ws : List Char) : Prop := ∀ c ∈ ws, c ∈ [' ', '\n', '\t', '\r']

instance (ws : List Char) : Decidable (Blank ws) :=
  List.decidableBAll (· ∈ [' ', '\n', '\t', '\r']) ws

/-- A value. -/
inductive Tree where
  /-- The word `null`. -/
  | null
  /-- A truth value. -/
  | boolean (b : Bool)
  /-- A number, as it is written. -/
  | number (n : Numeral)
  /-- A string, and the text that it is, if it is one. -/
  | text (s : Option String)
  /-- A list. -/
  | list (items : List Tree)
  /-- An object: keys and values in order. Keys may occur twice. -/
  | object (members : List (Option String × Tree))

/-- Elements with commas between them, and with white space around each comma and behind the last
element. -/
inductive Separated {α : Type} (Element : α → List Char → Prop) : List α → List Char → Prop
  /-- No element. -/
  | nil : Separated Element [] []
  /-- The last element. -/
  | last {a cs ws} : Element a cs → Blank ws → Separated Element [a] (cs ++ ws)
  /-- An element with others behind it. -/
  | cons {a b as cs ws ws' ds} : Element a cs → Blank ws → Blank ws' →
      Separated Element (b :: as) ds →
      Separated Element (a :: b :: as) (cs ++ (ws ++ ',' :: (ws' ++ ds)))

mutual

/-- **The characters that spell a value.** -/
inductive Spells : Tree → List Char → Prop
  /-- A word. -/
  | null : Spells .null ['n', 'u', 'l', 'l']
  /-- A word. -/
  | yes : Spells (.boolean true) ['t', 'r', 'u', 'e']
  /-- A word. -/
  | no : Spells (.boolean false) ['f', 'a', 'l', 's', 'e']
  /-- A number. -/
  | number (n : Numeral) : Spells (.number n) n.chars
  /-- A string. -/
  | text (ps : List Piece) : Spells (.text (textOf ps)) (quoted ps)
  /-- A list. -/
  | list {items ws cs} : Blank ws → Separated Spells items cs →
      Spells (.list items) ('[' :: (ws ++ (cs ++ [']'])))
  /-- An object. -/
  | object {members ws cs} : Blank ws → Separated SpellsMember members cs →
      Spells (.object members) ('{' :: (ws ++ (cs ++ ['}'])))

/-- The characters that spell a key and its value. -/
inductive SpellsMember : Option String × Tree → List Char → Prop
  /-- There is a colon between them. -/
  | mk {t ws ws' cs} (key : List Piece) : Blank ws → Blank ws' → Spells t cs →
      SpellsMember (textOf key, t) (quoted key ++ (ws ++ ':' :: (ws' ++ cs)))

end

/-- **A text that is one value**, with white space around it, in its octets. -/
def IsText (t : Tree) (body : Octets) : Prop :=
  ∃ ws cs ws', Blank ws ∧ Spells t cs ∧ Blank ws' ∧ body = octetsOfChars (ws ++ (cs ++ ws'))

/-! ### Strings in any spelling -/

/-- A hexadecimal digit is one octet, and it is read. -/
theorem HexDigit.octets (d : HexDigit) :
    String.utf8EncodeChar d.char = [ascii d.char] ∧ hexValue? (ascii d.char) = some d.value := by
  have hall : ∀ n < 16, ∀ b : Bool,
      String.utf8EncodeChar (if b then (hexDigit n).toUpper else hexDigit n) =
        [ascii (if b then (hexDigit n).toUpper else hexDigit n)] ∧
      hexValue? (ascii (if b then (hexDigit n).toUpper else hexDigit n)) = some n := by
    decide
  exact hall d.value d.lt d.capital

/-- Four hexadecimal digits are read. -/
theorem CodeUnit.readHex4_append (u : CodeUnit) (text : Octets) :
    readHex4 (octetsOfChars u.chars ++ text) = .ok (u.value, text) := by
  simp only [chars, octetsOfChars_cons, octetsOfChars_nil, HexDigit.octets, List.cons_append,
    List.nil_append, readHex4]
  rfl

/-- A character behind a backslash is read as the one that it stands for. -/
theorem readEscape_short {letter stands : Char} (h : (letter, stands) ∈ shortEscapes)
    (text : Octets) :
    readEscape (octetsOfChars [letter] ++ text) = .ok (String.utf8EncodeChar stands, text) := by
  simp only [shortEscapes, List.mem_cons, Prod.mk.injEq, List.not_mem_nil, or_false] at h
  rcases h with ⟨rfl, rfl⟩ | ⟨rfl, rfl⟩ | ⟨rfl, rfl⟩ | ⟨rfl, rfl⟩ | ⟨rfl, rfl⟩ | ⟨rfl, rfl⟩ |
    ⟨rfl, rfl⟩ | ⟨rfl, rfl⟩ <;> rfl

/-- An escape by number is read by what its number is. -/
theorem readEscape_unit (u : CodeUnit) (text : Octets) :
    readEscape (octetsOfChars ('u' :: u.chars) ++ text) =
      if u.Trailing then stopAt .loneSurrogate text
      else if u.Leading then
        (readTrailing u.value text).map fun p => (codePoint p.1, p.2)
      else .ok (codePoint u.value, text) := by
  show readEscape (ascii 'u' :: (octetsOfChars u.chars ++ text)) = _
  rw [readEscape, if_neg (by decide), if_neg (by decide), if_neg (by decide), if_neg (by decide),
    if_neg (by decide), if_neg (by decide), if_pos rfl, u.readHex4_append]
  simp only
  by_cases htrailing : u.Trailing
  · exact (if_pos htrailing).trans (if_pos htrailing).symm
  · refine (if_neg htrailing).trans (Eq.trans ?_ (if_neg htrailing).symm)
    by_cases hleading : u.Leading
    · obtain ⟨hmin, hmax⟩ := id hleading
      exact (if_neg (by omega)).trans (if_pos hleading).symm
    · refine (if_pos ?_).trans (if_neg hleading).symm
      rw [CodeUnit.Leading] at hleading
      omega

/-- The second half of a pair is read if it comes next. -/
theorem readTrailing_unit (leading : Nat) (v : CodeUnit) (text : Octets) :
    readTrailing leading (octetsOfChars ('\\' :: 'u' :: v.chars) ++ text) =
      if v.Trailing then
        .ok (0x10000 + (leading - 0xD800) * 0x400 + (v.value - 0xDC00), text)
      else stopAt .loneSurrogate text := by
  show readTrailing leading (ascii '\\' :: ascii 'u' :: (octetsOfChars v.chars ++ text)) = _
  rw [readTrailing, if_neg (by decide)]
  show (if ascii 'u' ≠ ascii 'u' then stopAt .endInSurrogate _ else _) = _
  rw [if_neg (by decide), v.readHex4_append]
  simp only
  by_cases htrailing : v.Trailing
  · obtain ⟨hmin, hmax⟩ := id htrailing
    exact (if_neg (by omega)).trans (if_pos htrailing).symm
  · refine (if_pos ?_).trans (if_neg htrailing).symm
    rw [CodeUnit.Trailing] at htrailing
    omega

/-- If something else comes next, there is a fault. -/
theorem exists_readTrailing_error (leading : Nat) {ps : List Piece}
    (hps : ∀ v qs, ps ≠ .unit v :: qs) (text : Octets) :
    ∃ e, readTrailing leading (octetsOfChars (ps.flatMap Piece.chars) ++ ascii '"' :: text) =
      .error e := by
  cases ps with
  | nil => exact ⟨_, rfl⟩
  | cons p ps =>
    cases p with
    | plain c hquote hslash hcontrol =>
      obtain ⟨b, bs, hb⟩ := List.exists_cons_of_ne_nil (String.utf8EncodeChar_ne_nil (c := c))
      have hplain := isPlain_of_mem hquote hslash hcontrol (hb ▸ List.mem_cons_self : b ∈ _)
      rw [List.flatMap_cons, octetsOfChars_append, Piece.chars, octetsOfChars_cons, hb]
      exact ⟨_, if_pos hplain.2.1⟩
    | short letter stands h =>
      have hletter : ∀ e ∈ shortEscapes, String.utf8EncodeChar e.1 = [ascii e.1] ∧
          ascii e.1 ≠ ascii 'u' := by decide
      obtain ⟨hone, hu⟩ := hletter _ h
      rw [List.flatMap_cons, octetsOfChars_append, Piece.chars, octetsOfChars_cons,
        octetsOfChars_cons, hone]
      obtain ⟨rest, hrest⟩ : ∃ rest, octetsOfChars (ps.flatMap Piece.chars) ++ ascii '"' :: text =
          rest := ⟨_, rfl⟩
      rw [List.append_assoc, hrest]
      show ∃ e, readTrailing leading (ascii '\\' :: ascii letter :: rest) = .error e
      rw [readTrailing, if_neg (by decide)]
      exact ⟨_, if_pos hu⟩
    | unit v => exact absurd rfl (hps v ps)

/-- An escape that cannot be read ends the reading. -/
theorem exists_readQuoted_error {fuel before tail text : Octets}
    (h : ∃ e, readEscape (tail ++ text) = .error e) (hfuel : 0 < fuel.length) :
    ∃ e, readQuoted fuel before (ascii '\\' :: tail ++ text) = .error e := by
  obtain ⟨e, he⟩ := h
  cases fuel with
  | nil => exact absurd hfuel (Nat.lt_irrefl 0)
  | cons f fuel =>
    refine ⟨e, ?_⟩
    rw [List.cons_append, readQuoted, if_neg (by decide), if_pos rfl, he]

/-- One character in front of what is gathered behind it. -/
theorem Finds.step {hs more text : Octets} {c : Char} {o : Option (List Char)} {n : Nat}
    {fuel before : Octets}
    (hstep : ∃ left : Octets, fuel.length ≤ left.length + hs.length ∧
      readQuoted fuel before (hs ++ more) =
        readQuoted left ((String.utf8EncodeChar c).reverse ++ before) more)
    (hmore : ∀ {fuel before : Octets}, n < fuel.length →
      Finds (o.map fun cs => before.reverse ++ octetsOfChars cs) text
        (readQuoted fuel before more))
    (hfuel : hs.length + n < fuel.length) :
    Finds ((o.map (c :: ·)).map fun cs => before.reverse ++ octetsOfChars cs) text
      (readQuoted fuel before (hs ++ more)) := by
  obtain ⟨left, hleft, hread⟩ := hstep
  have hbehind : Finds (o.map fun cs => ((String.utf8EncodeChar c).reverse ++ before).reverse ++
      octetsOfChars cs) text (readQuoted left ((String.utf8EncodeChar c).reverse ++ before) more) :=
    hmore (by omega)
  rw [hread]
  cases o with
  | none => exact hbehind
  | some cs =>
    show readQuoted _ _ _ = .ok (before.reverse ++ octetsOfChars (c :: cs), text)
    rw [List.reverse_append, List.reverse_reverse] at hbehind
    rw [octetsOfChars_cons, ← List.append_assoc]
    exact hbehind

/-- **What stands between quotes** is gathered as the octets of the characters that it stands for,
and if it stands for none there is a fault. -/
theorem readQuoted_pieces (ps : List Piece) {fuel before text : Octets}
    (hfuel : (octetsOfChars (ps.flatMap Piece.chars)).length < fuel.length) :
    Finds ((charsOf? ps).map fun cs => before.reverse ++ octetsOfChars cs) text
      (readQuoted fuel before (octetsOfChars (ps.flatMap Piece.chars) ++ ascii '"' :: text)) := by
  have hsplit : ∀ (p : Piece) (qs : List Piece), octetsOfChars ((p :: qs).flatMap Piece.chars) =
      octetsOfChars p.chars ++ octetsOfChars (qs.flatMap Piece.chars) := by
    intro p qs
    rw [List.flatMap_cons, octetsOfChars_append]
  have hunit : ∀ u : CodeUnit, octetsOfChars (Piece.unit u).chars =
      ascii '\\' :: octetsOfChars ('u' :: u.chars) := fun u => rfl
  fun_induction charsOf? ps generalizing fuel before with
  | case1 =>
    cases fuel with
    | nil => exact absurd hfuel (Nat.lt_irrefl 0)
    | cons f fuel =>
      show readQuoted (f :: fuel) before (ascii '"' :: text) = .ok (before.reverse ++ [], text)
      rw [readQuoted, if_pos rfl, List.append_nil]
  | case2 c hquote hslash hcontrol ps ih =>
    rw [hsplit, List.length_append] at hfuel
    rw [hsplit, List.append_assoc]
    have hself : octetsOfChars (Piece.plain c hquote hslash hcontrol).chars =
        String.utf8EncodeChar c := List.append_nil _
    rw [hself] at hfuel ⊢
    exact .step (readQuoted_plain (fun b => isPlain_of_mem hquote hslash hcontrol) _ _
      (by omega)) ih hfuel
  | case3 letter c h ps ih =>
    rw [hsplit, List.length_append] at hfuel
    rw [hsplit, List.append_assoc]
    have hself : octetsOfChars (Piece.short letter c h).chars =
        ascii '\\' :: octetsOfChars [letter] := rfl
    rw [hself] at hfuel ⊢
    exact .step (readQuoted_escape before (readEscape_short h _) (by omega)) ih hfuel
  | case4 u ps htrailing =>
    rw [hsplit, hunit, List.append_assoc]
    refine exists_readQuoted_error ?_ (Nat.zero_lt_of_lt hfuel)
    rw [readEscape_unit, if_pos htrailing]
    exact ⟨_, rfl⟩
  | case5 u hlow hleading v ps htrailing ih =>
    -- the two halves are one escape
    rw [hsplit, hsplit, hunit, ← List.append_assoc, List.cons_append, List.length_append] at hfuel
    rw [hsplit, hsplit, hunit, ← List.append_assoc, List.cons_append, List.append_assoc]
    refine .step (readQuoted_escape before ?_ (by omega)) ih hfuel
    rw [List.append_assoc, readEscape_unit, if_neg hlow, if_pos hleading]
    show Except.map _ (readTrailing u.value (octetsOfChars ('\\' :: 'u' :: v.chars) ++ _)) = _
    rw [readTrailing_unit, if_pos htrailing]
    rfl
  | case6 u hlow hleading v ps htrailing =>
    rw [hsplit, hsplit, hunit, List.append_assoc, List.append_assoc]
    refine exists_readQuoted_error ?_ (Nat.zero_lt_of_lt hfuel)
    rw [readEscape_unit, if_neg hlow, if_pos hleading]
    show ∃ e, Except.map _
      (readTrailing u.value (octetsOfChars ('\\' :: 'u' :: v.chars) ++ _)) = .error e
    rw [readTrailing_unit, if_neg htrailing]
    exact ⟨_, rfl⟩
  | case7 u ps hlow hleading hother =>
    rw [hsplit, hunit, List.append_assoc]
    refine exists_readQuoted_error ?_ (Nat.zero_lt_of_lt hfuel)
    obtain ⟨e, he⟩ := exists_readTrailing_error u.value hother text
    rw [readEscape_unit, if_neg hlow, if_pos hleading, he]
    exact ⟨_, rfl⟩
  | case8 u ps hlow hleading ih =>
    rw [hsplit, hunit, List.length_append] at hfuel
    rw [hsplit, hunit, List.append_assoc]
    refine .step (readQuoted_escape before ?_ (by omega)) ih hfuel
    rw [readEscape_unit, if_neg hlow, if_neg hleading]
    rfl

/-- **A string in any spelling is read as the text that it is**, from behind its opening quote. -/
theorem readChars_pieces (ps : List Piece) (text : Octets) :
    Finds (textOf ps) text
      (readChars (octetsOfChars (ps.flatMap Piece.chars) ++ ascii '"' :: text)) := by
  have hread : Finds ((charsOf? ps).map fun cs => [].reverse ++ octetsOfChars cs) text
      (readQuoted (octetsOfChars (ps.flatMap Piece.chars) ++ ascii '"' :: text) []
        (octetsOfChars (ps.flatMap Piece.chars) ++ ascii '"' :: text)) :=
    readQuoted_pieces ps (by simp)
  rw [readChars, textOf]
  cases hcs : charsOf? ps with
  | none =>
    rw [hcs] at hread
    obtain ⟨e, he⟩ := hread
    rw [he]
    exact ⟨e, rfl⟩
  | some cs =>
    rw [hcs] at hread
    have htext : textOf? (octetsOfChars cs) = some (String.ofList cs) := by
      have hself := octetsOfChars_toList (String.ofList cs)
      rw [String.toList_ofList] at hself
      rw [hself, textOf?_octetsOf]
    rw [show readQuoted _ _ _ = .ok ([].reverse ++ octetsOfChars cs, text) from hread]
    simp only [List.reverse_nil, List.nil_append, htext]
    rfl

/-! ### Strings as they are written -/

/-- The digit of a value below sixteen, in small letters. -/
def HexDigit.ofNat (n : Nat) (h : n < 16) : HexDigit := ⟨n, h, false⟩

/-- The number of a control. -/
def CodeUnit.ofControl (n : Nat) (h : n < 32) : CodeUnit :=
  ⟨.ofNat 0 (by decide), .ofNat 0 (by decide), .ofNat (n / 16) (by omega),
    .ofNat (n % 16) (Nat.mod_lt n (by decide))⟩

theorem CodeUnit.value_ofControl {n : Nat} (h : n < 32) : (CodeUnit.ofControl n h).value = n := by
  show ((0 * 16 + 0) * 16 + n / 16) * 16 + n % 16 = n
  omega

/-- The piece that is written for a character: it is left as it is unless it cannot be. -/
def Piece.ofChar (c : Char) : Piece :=
  if hquote : c = '"' then .short '"' c (by subst hquote; decide)
  else if hslash : c = '\\' then .short '\\' c (by subst hslash; decide)
  else if hn : c = '\n' then .short 'n' c (by subst hn; decide)
  else if hr : c = '\r' then .short 'r' c (by subst hr; decide)
  else if ht : c = '\t' then .short 't' c (by subst ht; decide)
  else if hb : c = '\x08' then .short 'b' c (by subst hb; decide)
  else if hf : c = '\x0c' then .short 'f' c (by subst hf; decide)
  else if hcontrol : c.toNat < 32 then .unit (.ofControl c.toNat hcontrol)
  else .plain c hquote hslash (Nat.not_lt.1 hcontrol)

/-- Its characters are those that the writer puts between quotes. -/
theorem Piece.chars_ofChar (c : Char) : (Piece.ofChar c).chars = escapeChar c := by
  rw [ofChar, escapeChar]
  split_ifs <;> rfl

/-- The piece of a character stands for it, in front of any other pieces. -/
theorem charsOf?_ofChar (c : Char) (ps : List Piece) :
    charsOf? (Piece.ofChar c :: ps) = (charsOf? ps).map (c :: ·) := by
  have hcontrol : ∀ h : c.toNat < 32,
      charsOf? (.unit (.ofControl c.toNat h) :: ps) = (charsOf? ps).map (c :: ·) := by
    intro h
    have hvalue := CodeUnit.value_ofControl h
    conv_lhs => unfold charsOf?
    rw [if_neg (by rw [CodeUnit.Trailing, hvalue]; omega),
      if_neg (by rw [CodeUnit.Leading, hvalue]; omega), hvalue, Char.ofNat_toNat]
  rw [Piece.ofChar]
  split_ifs
  all_goals first
    | rfl
    | exact hcontrol _

/-- The pieces that are written for a text. -/
def piecesOf (s : String) : List Piece := s.toList.map Piece.ofChar

/-- **A text is written in pieces** between quotes. -/
theorem quoted_piecesOf (s : String) : quoted (piecesOf s) = stringChars s := by
  rw [quoted, stringChars, piecesOf, List.flatMap_map]
  simp only [Piece.chars_ofChar]

/-- And the pieces are that text. -/
theorem textOf_piecesOf (s : String) : textOf (piecesOf s) = some s := by
  have hchars : ∀ cs : List Char, charsOf? (cs.map Piece.ofChar) = some cs := by
    intro cs
    induction cs with
    | nil => rfl
    | cons c cs ih => rw [List.map_cons, charsOf?_ofChar, ih, Option.map_some]
  rw [textOf, piecesOf, hchars, Option.map_some, String.ofList_toList]

/-- **A string is read back** from behind its opening quote, -/
theorem readChars_escaped (s : String) (text : Octets) :
    readChars (octetsOfChars (s.toList.flatMap escapeChar) ++ ascii '"' :: text) =
      .ok (s, text) := by
  have hread := readChars_pieces (piecesOf s) text
  have hchars : (piecesOf s).flatMap Piece.chars = s.toList.flatMap escapeChar := by
    rw [piecesOf, List.flatMap_map]
    simp only [Piece.chars_ofChar]
  rwa [textOf_piecesOf, hchars] at hread

/-- and quotes and all. -/
theorem readString_stringChars (s : String) (text : Octets) :
    readString (octetsOfChars (stringChars s) ++ text) = .ok (s, text) := by
  rw [octetsOfChars_stringChars, List.cons_append, List.append_assoc, readString,
    skipSpace_cons (by decide)]
  exact readChars_escaped s text

/-- A text that is written spells it. -/
theorem spells_stringChars (s : String) : Spells (.text (some s)) (stringChars s) := by
  have h := Spells.text (piecesOf s)
  rwa [textOf_piecesOf, quoted_piecesOf] at h

/-- A key that is written, and the value behind it. -/
theorem spellsMember_stringChars (key : String) {t : Tree} {ws ws' cs : List Char} (hws : Blank ws)
    (hws' : Blank ws') (h : Spells t cs) :
    SpellsMember (some key, t) (stringChars key ++ (ws ++ ':' :: (ws' ++ cs))) := by
  have h := SpellsMember.mk (piecesOf key) hws hws' h
  rwa [textOf_piecesOf, quoted_piecesOf] at h

end Telemetry.Json
