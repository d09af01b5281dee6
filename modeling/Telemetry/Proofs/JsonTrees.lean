import Mathlib
import Telemetry.Proofs.JsonGrammar
import Telemetry.Proofs.Results

/-!
# Values are read as they are spelled

The readers know no trees. They ask for one value of a known type and take what follows as it
comes. So what the grammar says and what they do are tied together by statements with more text
behind them: what a reader for one type makes of the characters of any value, and then what the two
loops - over the entries of an object, over the items of a list - make of the characters of many.

A value of another type than the one asked for is never read to its end. Its first octet gives it
away, so however deep a tree may be, only its root matters here.

* `Tree.Head`: with which octet a value begins;
* `readString_spells`, `readOptional_spells`: one value of a known type;
* `TakesMembers`, `readEntries_spells`: an object entry by entry;
* `readItems_spells`: a list item by item.
-/

namespace Telemetry.Json

/-! ### White space -/

/-- White space is one octet a character. -/
theorem octetsOfChars_blank {c : Char} (hc : c ∈ [' ', '\n', '\t', '\r']) (cs : List Char) :
    octetsOfChars (c :: cs) = ascii c :: octetsOfChars cs ∧ isSpace (ascii c) = true := by
  simp only [List.mem_cons, List.not_mem_nil, or_false] at hc
  rcases hc with rfl | rfl | rfl | rfl <;> exact ⟨rfl, by decide⟩

/-- White space is skipped. -/
theorem skipSpace_blank {ws : List Char} (hws : Blank ws) (text : Octets) :
    skipSpace (octetsOfChars ws ++ text) = skipSpace text := by
  induction ws with
  | nil => rfl
  | cons c ws ih =>
    obtain ⟨hone, hspace⟩ := octetsOfChars_blank (hws c List.mem_cons_self) ws
    rw [hone, List.cons_append, skipSpace, List.dropWhile_cons_of_pos hspace]
    exact ih fun d hd => hws d (List.mem_cons_of_mem c hd)

/-- White space in front of what stops a number stops it. -/
theorem stops_blank {ws : List Char} (hws : Blank ws) {text : Octets} (h : Stops text) :
    Stops (octetsOfChars ws ++ text) := by
  cases ws with
  | nil => exact h
  | cons c ws =>
    have hc := hws c List.mem_cons_self
    simp only [List.mem_cons, List.not_mem_nil, or_false] at hc
    rcases hc with rfl | rfl | rfl | rfl <;> exact ⟨rfl, rfl⟩

/-! ### One value -/

/-- With which octet a value begins. -/
def Tree.Head : Tree → UInt8 → Prop
  | .null, b => b = ascii 'n'
  | .boolean _, b => b = ascii 't' ∨ b = ascii 'f'
  | .number _, b => b = ascii '-' ∨ ∃ d < 10, b = ascii (Nat.digitChar d)
  | .text _, b => b = ascii '"'
  | .list _, b => b = ascii '['
  | .object _, b => b = ascii '{'

/-- The characters of a value begin as the value does. -/
theorem Spells.head {t : Tree} {cs : List Char} (h : Spells t cs) :
    ∃ b bs, octetsOfChars cs = b :: bs ∧ t.Head b := by
  cases h with
  | null => exact ⟨_, _, rfl, rfl⟩
  | yes => exact ⟨_, _, rfl, .inl rfl⟩
  | no => exact ⟨_, _, rfl, .inr rfl⟩
  | text ps => exact ⟨_, _, rfl, rfl⟩
  | list => exact ⟨_, _, rfl, rfl⟩
  | object => exact ⟨_, _, rfl, rfl⟩
  | number n =>
    rw [Numeral.chars]
    cases n.negative with
    | true => exact ⟨_, _, rfl, .inl rfl⟩
    | false =>
      obtain ⟨d, ds, hd, hlist⟩ : ∃ d ds, d < 10 ∧ n.whole.list = d :: ds := by
        rcases n.whole_cases with hzero | ⟨d, ds, -, hd, -, hlist⟩
        · exact ⟨0, [], by decide, hzero⟩
        · exact ⟨d, ds, hd, hlist⟩
      have hoctets : octetsOfChars n.unsignedChars = ascii (Nat.digitChar d) ::
          (octetsOfChars (ds.map Nat.digitChar) ++
            octetsOfChars (tailChars n.fraction n.exponent)) := by
        rw [Numeral.unsignedChars, octetsOfChars_append, Digits.chars, hlist, List.map_cons,
          octetsOfChars_digits hd, List.cons_append]
      exact ⟨_, _, hoctets, .inr ⟨d, hd, rfl⟩⟩

/-- No value begins with white space, with the end of a list or of an object, or with a comma. -/
theorem Tree.Head.plain {t : Tree} {b : UInt8} (h : t.Head b) :
    isSpace b = false ∧ b ≠ ascii ']' ∧ b ≠ ascii '}' ∧ b ≠ ascii ',' := by
  have hdigits : ∀ d < 10, isSpace (ascii (Nat.digitChar d)) = false ∧
      ascii (Nat.digitChar d) ≠ ascii ']' ∧ ascii (Nat.digitChar d) ≠ ascii '}' ∧
        ascii (Nat.digitChar d) ≠ ascii ',' := by decide
  cases t with
  | boolean b => rcases h with rfl | rfl <;> decide
  | number n =>
    rcases h with rfl | ⟨d, hd, rfl⟩
    · decide
    · exact hdigits d hd
  | null => cases h; decide
  | text s => cases h; decide
  | list items => cases h; decide
  | object members => cases h; decide

/-- Only a string begins with a quote, only `null` as it does, and only a number as a number. -/
theorem Tree.Head.tells {t : Tree} {b : UInt8} (h : t.Head b) :
    ((∀ s, t ≠ .text s) → b ≠ ascii '"') ∧ (t ≠ .null → b ≠ ascii 'n') ∧
      ((∀ n, t ≠ .number n) → b ≠ ascii '-' ∧ isOctetDigit b = false) := by
  have hdigits : ∀ d < 10, ascii (Nat.digitChar d) ≠ ascii '"' ∧
      ascii (Nat.digitChar d) ≠ ascii 'n' := by decide
  cases t with
  | text s => cases h; exact ⟨fun ht => absurd rfl (ht s), fun _ => by decide, fun _ => by decide⟩
  | null => cases h; exact ⟨fun _ => by decide, fun ht => absurd rfl ht, fun _ => by decide⟩
  | number n =>
    rcases h with rfl | ⟨d, hd, rfl⟩
    · exact ⟨fun _ => by decide, fun _ => by decide, fun ht => absurd rfl (ht n)⟩
    · exact ⟨fun _ => (hdigits d hd).1, fun _ => (hdigits d hd).2, fun ht => absurd rfl (ht n)⟩
  | boolean c =>
    rcases h with rfl | rfl <;> exact ⟨fun _ => by decide, fun _ => by decide, fun _ => by decide⟩
  | list items => cases h; exact ⟨fun _ => by decide, fun _ => by decide, fun _ => by decide⟩
  | object members => cases h; exact ⟨fun _ => by decide, fun _ => by decide, fun _ => by decide⟩

/-- What is of the wrong type is a fault. -/
theorem exists_wrongType_error {α : Type} (expected : String) (text : Octets) :
    ∃ e, (wrongType expected text : Except Stop (α × Octets)) = .error e := by
  -- whatever is read first, a fault is what follows it
  have hfault : ∀ {β : Type} (x : Except Stop β) {next : β → Except Stop (α × Octets)},
      (∀ b, ∃ e, next b = .error e) → ∃ e, (x >>= next) = .error e := by
    rintro β (e | b) next hnext
    · exact ⟨e, rfl⟩
    · exact hnext b
  cases text with
  | nil => exact ⟨_, rfl⟩
  | cons b rest =>
    rw [wrongType]
    split_ifs
    all_goals first
      | exact ⟨_, rfl⟩
      | exact hfault _ fun _ => ⟨_, rfl⟩

/-- The text that a value is. -/
def Tree.text? : Tree → Option String
  | .text s => s
  | _ => none

/-- The octets of a string behind its opening quote. -/
theorem octetsOfChars_quoted (ps : List Piece) (rest : Octets) :
    octetsOfChars (quoted ps) ++ rest =
      ascii '"' :: (octetsOfChars (ps.flatMap Piece.chars) ++ ascii '"' :: rest) := by
  rw [quoted, octetsOfChars_cons, octetsOfChars_append, List.append_assoc, List.append_assoc]
  rfl

/-- **A string is asked for**: any other value is a fault. -/
theorem readString_spells {t : Tree} {cs : List Char} (h : Spells t cs) (rest : Octets) :
    Finds t.text? rest (readString (octetsOfChars cs ++ rest)) := by
  obtain ⟨b, bs, hoctets, hb⟩ := h.head
  have hother : (∀ s, t ≠ .text s) → Finds none rest (readString (octetsOfChars cs ++ rest)) := by
    intro ht
    have hquote := hb.tells.1 ht
    obtain ⟨e, he⟩ := exists_wrongType_error (α := String) "a string" (b :: (bs ++ rest))
    rw [hoctets, List.cons_append, readString, skipSpace_cons hb.plain.1]
    exact ⟨e, (if_neg hquote).trans he⟩
  cases h with
  | text ps =>
    rw [octetsOfChars_quoted, readString, skipSpace_cons (by decide)]
    exact readChars_pieces ps rest
  | _ => exact hother fun s hs => by cases hs

/-- What a value holds that may also be `null`. -/
def Tree.held? {α : Type} (read : Numeral → Option α) : Tree → Option (Option α)
  | .null => some none
  | .number n => (read n).map some
  | _ => none

/-- There is a number in it exactly if one is written. -/
theorem Tree.held?_eq_some_some_iff {α : Type} {read : Numeral → Option α} {t : Tree} {a : α} :
    t.held? read = some (some a) ↔ ∃ n, t = .number n ∧ read n = some a := by
  cases t with
  | number n =>
    rw [held?, Option.map_eq_some_iff]
    refine ⟨fun ⟨b, hb, hab⟩ => ⟨n, rfl, Option.some.inj hab ▸ hb⟩, ?_⟩
    rintro ⟨_, ⟨⟩, hn⟩
    exact ⟨a, hn, rfl⟩
  | null | boolean _ | text _ | list _ | object _ =>
    exact ⟨fun h => (by cases h), fun ⟨n, hn, _⟩ => (by cases hn)⟩

/-- A reader that finds numbers of one kind in numerals and nothing in any other value. -/
structure ReadsNumerals {α : Type} (read : Octets → Except Stop (α × Octets))
    (numeral : Numeral → Option α) : Prop where
  /-- What it finds in a numeral. -/
  finds : ∀ n rest, Stops rest → Finds (numeral n) rest (read (octetsOfChars n.chars ++ rest))
  /-- Anything else is a fault. -/
  fails : ∀ b text, isSpace b = false → b ≠ ascii '-' → isOctetDigit b = false →
    ∃ e, read (b :: text) = .error e

/-- Where no number begins none is found. -/
theorem exists_readNum_error (expected : String) {b : UInt8} (text : Octets)
    (hspace : isSpace b = false) (hminus : b ≠ ascii '-') (hdigit : isOctetDigit b = false) :
    ∃ e, readNum expected (b :: text) = .error e := by
  obtain ⟨e, he⟩ := exists_wrongType_error (α := Num) expected (b :: text)
  refine ⟨e, ?_⟩
  rw [readNum, skipSpace_cons hspace]
  simp only
  rw [if_neg hminus, hdigit]
  exact he

/-- Whole numbers of 64 bits are found so. -/
theorem readsNumerals_readInteger : ReadsNumerals readInteger Numeral.int64? where
  finds n _ hrest := n.readInteger_finds hrest
  fails b text hspace hminus hdigit := by
    obtain ⟨e, he⟩ := exists_readNum_error "i64" text hspace hminus hdigit
    rw [readInteger, he]
    exact ⟨e, rfl⟩

/-- And so are doubles. -/
theorem readsNumerals_readReal : ReadsNumerals readReal Numeral.double? where
  finds n _ hrest := (n.readReal_settles hrest).finds
  fails b text hspace hminus hdigit := by
    obtain ⟨e, he⟩ := exists_readNum_error "f64" text hspace hminus hdigit
    rw [readReal, he]
    exact ⟨e, rfl⟩

/-- **A number or `null` is asked for**: any other value is a fault. -/
theorem readOptional_spells {α : Type} {read : Octets → Except Stop (α × Octets)}
    {numeral : Numeral → Option α} (hread : ReadsNumerals read numeral) {t : Tree}
    {cs : List Char} (h : Spells t cs) {rest : Octets} (hrest : Stops rest) :
    Finds (t.held? numeral) rest (readOptional read (octetsOfChars cs ++ rest)) := by
  obtain ⟨b, bs, hoctets, hb⟩ := h.head
  obtain ⟨hspace, -⟩ := hb.plain
  have hvalue : t ≠ .null → readOptional read (octetsOfChars cs ++ rest) =
      (read (octetsOfChars cs ++ rest)).map fun p => (some p.1, p.2) := by
    intro ht
    have hnull := hb.tells.2.1 ht
    rw [hoctets, List.cons_append, readOptional, skipSpace_cons hspace]
    exact if_neg hnull
  have hother : t ≠ .null → (∀ n, t ≠ .number n) →
      Finds none rest (readOptional read (octetsOfChars cs ++ rest)) := by
    intro hnull hnumber
    obtain ⟨hminus, hdigit⟩ := hb.tells.2.2 hnumber
    obtain ⟨e, he⟩ := hread.fails b (bs ++ rest) hspace hminus hdigit
    rw [hvalue hnull, hoctets, List.cons_append, he]
    exact ⟨e, rfl⟩
  cases h with
  | null => rfl
  | number n =>
    rw [hvalue (by rintro ⟨⟩)]
    exact (hread.finds n rest hrest).map some
  | _ => exact hother (by rintro ⟨⟩) (by rintro n ⟨⟩)

/-! ### Many values -/

/-- What is found in front of white space and `rest`. -/
def FindsAhead {α : Type} (o : Option α) (rest : Octets) (r : Except Stop (α × Octets)) : Prop :=
  ∃ ws, Blank ws ∧ Finds o (octetsOfChars ws ++ rest) r

/-- The octets of characters with a comma among them. -/
theorem octetsOfChars_comma (cs ws ws' ds : List Char) (rest : Octets) :
    octetsOfChars (cs ++ (ws ++ ',' :: (ws' ++ ds))) ++ rest =
      octetsOfChars cs ++ (octetsOfChars ws ++ ascii ',' ::
        (octetsOfChars ws' ++ (octetsOfChars ds ++ rest))) := by
  simp only [octetsOfChars_append, octetsOfChars_cons, List.append_assoc]
  rfl

/-- No element is spelled with nothing, so there are at least as many octets as elements. -/
theorem Separated.length_le {α : Type} {Element : α → List Char → Prop}
    (hne : ∀ a cs, Element a cs → octetsOfChars cs ≠ []) {as : List α} {cs : List Char}
    (h : Separated Element as cs) : as.length ≤ (octetsOfChars cs).length := by
  induction h with
  | nil => exact Nat.le_refl 0
  | last ha _ =>
    have hpos := List.length_pos_of_ne_nil (hne _ _ ha)
    rw [octetsOfChars_append, List.length_append, List.length_singleton]
    omega
  | @cons a b as cs ws ws' ds ha _ _ _ ih =>
    have hlength := congrArg List.length (octetsOfChars_comma cs ws ws' ds [])
    simp only [List.append_nil, List.length_append, List.length_cons] at hlength ih ⊢
    omega

/-! #### Entries of an object -/

theorem nextKey_first {ws : List Char} (hws : Blank ws) (inKey : Octets) :
    nextKey true (octetsOfChars ws ++ ascii '"' :: inKey) = .ok (some inKey) := by
  rw [nextKey, skipSpace_blank hws, skipSpace_cons (by decide)]
  rfl

theorem nextKey_comma {ws ws' : List Char} (hws : Blank ws) (hws' : Blank ws') (inKey : Octets) :
    nextKey false (octetsOfChars ws ++ ascii ',' :: (octetsOfChars ws' ++ ascii '"' :: inKey)) =
      .ok (some inKey) := by
  rw [nextKey, skipSpace_blank hws, skipSpace_cons (by decide)]
  simp only
  rw [if_neg (by decide), if_neg (by decide), if_pos trivial, skipSpace_blank hws',
    skipSpace_cons (by decide)]
  rfl

theorem nextKey_end (first : Bool) {ws : List Char} (hws : Blank ws) (more : Octets) :
    nextKey first (octetsOfChars ws ++ ascii '}' :: more) = .ok none := by
  rw [nextKey, skipSpace_blank hws, skipSpace_cons (by decide)]
  rfl

/-- A handler of entries that takes a key and its value as `step` does. -/
structure TakesMembers {σ : Type} (entry : String → σ → Octets → Except Stop (σ × Octets))
    (step : σ → Option String × Tree → Option σ) : Prop where
  /-- What it makes of the octets of a member, from behind the key. -/
  takes : ∀ key sofar t ws ws' cs rest, Blank ws → Blank ws' → Spells t cs → Stops rest →
    Finds (step sofar (some key, t)) rest
      (entry key sofar (octetsOfChars ws ++ ascii ':' ::
        (octetsOfChars ws' ++ (octetsOfChars cs ++ rest))))
  /-- A key that is no text is not taken. -/
  key : ∀ sofar t, step sofar (none, t) = none

section

variable {σ : Type} {entry : String → σ → Octets → Except Stop (σ × Octets)}
  {step : σ → Option String × Tree → Option σ}

/-- Where the end of an object comes next, the reading of its entries ends. -/
theorem readEntries_stop (first : Bool) (sofar : σ) {ws : List Char} (hws : Blank ws)
    (more : Octets) {fuel : Octets} (hfuel : 0 < fuel.length) :
    readEntries entry fuel first sofar (octetsOfChars ws ++ ascii '}' :: more) =
      .ok (sofar, octetsOfChars ws ++ ascii '}' :: more) := by
  cases fuel with
  | nil => exact absurd hfuel (Nat.lt_irrefl 0)
  | cons f fuel =>
    rw [readEntries, nextKey_end first hws]
    rfl

/-- **One member** is taken, and the others are read behind it; or there is a fault. -/
theorem readEntries_member (hentry : TakesMembers entry step) {m : Option String × Tree}
    {cs : List Char} (hm : SpellsMember m cs) {text rest : Octets} {first : Bool}
    (hnext : ∀ inKey, octetsOfChars cs ++ rest = ascii '"' :: inKey →
      nextKey first text = .ok (some inKey))
    (hrest : Stops rest) (sofar : σ) (f : UInt8) (fuel : Octets) :
    match step sofar m with
      | none => ∃ e, readEntries entry (f :: fuel) first sofar text = .error e
      | some after => readEntries entry (f :: fuel) first sofar text =
          readEntries entry fuel false after rest := by
  obtain ⟨key, hws, hws', ht⟩ := hm
  rename_i t ws ws' cs
  have hoctets : octetsOfChars (quoted key ++ (ws ++ ':' :: (ws' ++ cs))) ++ rest =
      ascii '"' :: (octetsOfChars (key.flatMap Piece.chars) ++ ascii '"' :: (octetsOfChars ws ++
        ascii ':' :: (octetsOfChars ws' ++ (octetsOfChars cs ++ rest)))) := by
    rw [octetsOfChars_append, List.append_assoc, octetsOfChars_quoted]
    simp only [octetsOfChars_append, octetsOfChars_cons, List.append_assoc]
    rfl
  have hkey := readChars_pieces key (octetsOfChars ws ++ ascii ':' ::
    (octetsOfChars ws' ++ (octetsOfChars cs ++ rest)))
  rw [readEntries, hnext _ hoctets]
  simp only [bind, Except.bind]
  cases hname : textOf key with
  | none =>
    rw [hname] at hkey
    obtain ⟨e, he⟩ := hkey
    rw [hentry.key, he]
    exact ⟨e, rfl⟩
  | some name =>
    rw [hname] at hkey
    have htaken := hentry.takes name sofar t ws ws' cs rest hws hws' ht hrest
    rw [show readChars _ = .ok (name, _) from hkey]
    simp only
    cases hstep : step sofar (some name, t) with
    | none =>
      rw [hstep] at htaken
      obtain ⟨e, he⟩ := htaken
      rw [he]
      exact ⟨e, rfl⟩
    | some after =>
      rw [hstep] at htaken
      rw [show entry _ _ _ = .ok (after, rest) from htaken]

/-- **The members of an object** are taken one after the other, from the first one on. -/
theorem readEntries_members (hentry : TakesMembers entry step) (m : Option String × Tree)
    (ms : List (Option String × Tree)) {cs : List Char}
    (h : Separated SpellsMember (m :: ms) cs) (sofar : σ) {more text fuel : Octets} {first : Bool}
    (hfuel : (m :: ms).length < fuel.length)
    (hnext : ∀ inKey, octetsOfChars cs ++ ascii '}' :: more = ascii '"' :: inKey →
      nextKey first text = .ok (some inKey)) :
    FindsAhead ((m :: ms).foldlM step sofar) (ascii '}' :: more)
      (readEntries entry fuel first sofar text) := by
  induction ms generalizing m cs sofar text fuel first with
  | nil =>
    obtain _ | ⟨hm, hws⟩ := h
    rename_i cs ws
    obtain ⟨f, fuel, rfl⟩ : ∃ f left, fuel = f :: left := by
      match fuel, hfuel with
      | f :: left, _ => exact ⟨f, left, rfl⟩
    rw [octetsOfChars_append, List.append_assoc] at hnext
    have hstops := stops_blank hws (stops_cons (.inr (.inr rfl)) more)
    have hread := readEntries_member hentry hm hnext hstops sofar f fuel
    refine ⟨ws, hws, ?_⟩
    rw [List.foldlM_cons]
    cases hstep : step sofar m with
    | none => rwa [hstep] at hread
    | some after =>
      rw [hstep] at hread
      exact hread.trans (readEntries_stop false after hws more (Nat.lt_of_succ_lt_succ hfuel))
  | cons n ms ih =>
    obtain _ | _ | ⟨hm, hws, hws', hmore⟩ := h
    rename_i cs ws ws' ds
    obtain ⟨f, fuel, rfl⟩ : ∃ f left, fuel = f :: left := by
      match fuel, hfuel with
      | f :: left, _ => exact ⟨f, left, rfl⟩
    rw [octetsOfChars_comma] at hnext
    have hstops := stops_blank hws (stops_cons (.inl rfl)
      (octetsOfChars ws' ++ (octetsOfChars ds ++ ascii '}' :: more)))
    have hread := readEntries_member hentry hm hnext hstops sofar f fuel
    rw [List.foldlM_cons]
    cases hstep : step sofar m with
    | none =>
      rw [hstep] at hread
      exact ⟨[], fun c hc => absurd hc List.not_mem_nil, hread⟩
    | some after =>
      rw [hstep] at hread
      rw [hread]
      refine ih n hmore after (Nat.lt_of_succ_lt_succ hfuel) fun inKey hin => ?_
      rw [hin]
      exact nextKey_comma hws hws' inKey

/-- **An object is read entry by entry**, from behind its opening brace. -/
theorem readEntries_spells (hentry : TakesMembers entry step)
    {members : List (Option String × Tree)} {ws cs : List Char} (hws : Blank ws)
    (h : Separated SpellsMember members cs) (sofar : σ) (more : Octets) :
    FindsAhead (members.foldlM step sofar) (ascii '}' :: more)
      (readEntries entry (octetsOfChars ws ++ (octetsOfChars cs ++ ascii '}' :: more)) true sofar
        (octetsOfChars ws ++ (octetsOfChars cs ++ ascii '}' :: more))) := by
  have hlength := h.length_le (by rintro _ _ ⟨key⟩; exact List.cons_ne_nil _ _)
  cases members with
  | nil =>
    obtain _ | _ := h
    exact ⟨ws, hws, readEntries_stop true sofar hws more (by simp)⟩
  | cons m ms =>
    refine readEntries_members hentry m ms h sofar ?_ fun inKey hin => ?_
    · simp only [List.length_append, List.length_cons] at hlength ⊢
      omega
    · rw [hin]
      exact nextKey_first hws inKey

end

/-! #### Items of a list -/

theorem nextItem_first {ws : List Char} (hws : Blank ws) {b : UInt8} {behind : Octets}
    (hspace : isSpace b = false) (hend : b ≠ ascii ']') :
    nextItem true (octetsOfChars ws ++ b :: behind) = .ok (some (b :: behind)) := by
  rw [nextItem, skipSpace_blank hws, skipSpace_cons hspace]
  simp only
  rw [if_neg hend]
  rfl

theorem nextItem_comma {ws ws' : List Char} (hws : Blank ws) (hws' : Blank ws') {b : UInt8}
    {behind : Octets} (hspace : isSpace b = false) (hend : b ≠ ascii ']') :
    nextItem false (octetsOfChars ws ++ ascii ',' :: (octetsOfChars ws' ++ b :: behind)) =
      .ok (some (b :: behind)) := by
  rw [nextItem, skipSpace_blank hws, skipSpace_cons (by decide)]
  simp only
  rw [if_neg (by decide), if_neg (by decide), if_pos trivial, skipSpace_blank hws',
    skipSpace_cons hspace]
  exact if_neg hend

theorem nextItem_end (first : Bool) {ws : List Char} (hws : Blank ws) (more : Octets) :
    nextItem first (octetsOfChars ws ++ ascii ']' :: more) = .ok none := by
  rw [nextItem, skipSpace_blank hws, skipSpace_cons (by decide)]
  rfl

section

variable {α : Type} {item : Octets → Except Stop (α × Octets)} {read : Tree → Option α}

/-- Where the end of a list comes next, the reading of its items ends. -/
theorem readItems_stop (first : Bool) {ws : List Char} (hws : Blank ws) (more : Octets)
    {fuel : Octets} (hfuel : 0 < fuel.length) :
    readItems item fuel first (octetsOfChars ws ++ ascii ']' :: more) =
      .ok ([], octetsOfChars ws ++ ascii ']' :: more) := by
  cases fuel with
  | nil => exact absurd hfuel (Nat.lt_irrefl 0)
  | cons f fuel =>
    rw [readItems, nextItem_end first hws]
    rfl

/-- **One item** in front of others that are read behind it. -/
theorem readItems_item {text rest here : Octets} {first : Bool} {o : Option α}
    {others : Option (List α)} {stop : Octets} (f : UInt8) {fuel : Octets}
    (hnext : nextItem first text = .ok (some here)) (hitem : Finds o rest (item here))
    (hothers : FindsAhead others stop (readItems item fuel false rest)) :
    FindsAhead (o.bind fun a => others.map (a :: ·)) stop
      (readItems item (f :: fuel) first text) := by
  obtain ⟨ws, hws, hothers⟩ := hothers
  refine ⟨ws, hws, ?_⟩
  rw [readItems, hnext]
  simp only [bind, Except.bind]
  cases o with
  | none =>
    obtain ⟨e, he⟩ := hitem
    rw [he]
    exact ⟨e, rfl⟩
  | some a =>
    rw [show item here = .ok (a, rest) from hitem]
    cases others with
    | none =>
      obtain ⟨e, he⟩ := hothers
      simp only [he]
      exact ⟨e, rfl⟩
    | some as =>
      simp only [show readItems _ _ _ _ = .ok (as, _) from hothers]
      rfl

/-- **The items of a list** are read one after the other, from the first one on. -/
theorem readItems_items (t : Tree) (ts : List Tree)
    (hitem : ∀ u ∈ t :: ts, ∀ cs rest, Spells u cs → Stops rest →
      Finds (read u) rest (item (octetsOfChars cs ++ rest))) {cs : List Char}
    (h : Separated Spells (t :: ts) cs) {more text fuel : Octets} {first : Bool}
    (hfuel : (t :: ts).length < fuel.length)
    (hnext : ∀ b behind, octetsOfChars cs ++ ascii ']' :: more = b :: behind →
      isSpace b = false → b ≠ ascii ']' → nextItem first text = .ok (some (b :: behind))) :
    FindsAhead ((t :: ts).mapM read) (ascii ']' :: more) (readItems item fuel first text) := by
  induction ts generalizing t cs text fuel first with
  | nil =>
    obtain _ | ⟨ht, hws⟩ := h
    rename_i cs ws
    obtain ⟨f, fuel, rfl⟩ : ∃ f left, fuel = f :: left := by
      match fuel, hfuel with
      | f :: left, _ => exact ⟨f, left, rfl⟩
    have hstops := stops_blank hws (stops_cons (.inr (.inl rfl)) more)
    have hhere := hitem t List.mem_cons_self cs _ ht hstops
    obtain ⟨b, bs, hoctets, hb⟩ := ht.head
    obtain ⟨hspace, hend, -⟩ := hb.plain
    rw [octetsOfChars_append, List.append_assoc, hoctets, List.cons_append] at hnext
    rw [hoctets, List.cons_append] at hhere
    rw [mapM_option_cons]
    exact readItems_item f (hnext b _ rfl hspace hend) hhere
      ⟨ws, hws, readItems_stop false hws more (Nat.lt_of_succ_lt_succ hfuel)⟩
  | cons u ts ih =>
    obtain _ | _ | ⟨ht, hws, hws', hmore⟩ := h
    rename_i cs ws ws' ds
    obtain ⟨f, fuel, rfl⟩ : ∃ f left, fuel = f :: left := by
      match fuel, hfuel with
      | f :: left, _ => exact ⟨f, left, rfl⟩
    have hstops := stops_blank hws (stops_cons (.inl rfl)
      (octetsOfChars ws' ++ (octetsOfChars ds ++ ascii ']' :: more)))
    have hhere := hitem t List.mem_cons_self cs _ ht hstops
    obtain ⟨b, bs, hoctets, hb⟩ := ht.head
    obtain ⟨hspace, hend, -⟩ := hb.plain
    rw [octetsOfChars_comma, hoctets, List.cons_append] at hnext
    rw [hoctets, List.cons_append] at hhere
    rw [mapM_option_cons]
    refine readItems_item f (hnext b _ rfl hspace hend) hhere
      (ih u (fun v hv => hitem v (List.mem_cons_of_mem t hv)) hmore
        (Nat.lt_of_succ_lt_succ hfuel) fun c behind hc hspace' hend' => ?_)
    rw [hc]
    exact nextItem_comma hws hws' hspace' hend'

/-- **A list is read item by item**, from behind its opening bracket. -/
theorem readItems_spells {items : List Tree}
    (hitem : ∀ u ∈ items, ∀ cs rest, Spells u cs → Stops rest →
      Finds (read u) rest (item (octetsOfChars cs ++ rest))) {ws cs : List Char} (hws : Blank ws)
    (h : Separated Spells items cs) (more : Octets) :
    FindsAhead (items.mapM read) (ascii ']' :: more)
      (readItems item (octetsOfChars ws ++ (octetsOfChars cs ++ ascii ']' :: more)) true
        (octetsOfChars ws ++ (octetsOfChars cs ++ ascii ']' :: more))) := by
  have hne : ∀ t cs, Spells t cs → octetsOfChars cs ≠ [] := by
    intro t cs ht
    obtain ⟨b, bs, hoctets, -⟩ := ht.head
    rw [hoctets]
    exact List.cons_ne_nil b bs
  have hlength := h.length_le hne
  cases items with
  | nil =>
    obtain _ | _ := h
    exact ⟨ws, hws, readItems_stop true hws more (by simp)⟩
  | cons t ts =>
    refine readItems_items t ts hitem h ?_ fun b behind hb hspace hend => ?_
    · simp only [List.length_append, List.length_cons] at hlength ⊢
      omega
    · rw [hb]
      exact nextItem_first hws hspace hend

end

end Telemetry.Json
