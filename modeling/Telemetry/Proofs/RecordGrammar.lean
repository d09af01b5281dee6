import Mathlib
import Telemetry.Record
import Telemetry.Proofs.JsonTrees
import Telemetry.Proofs.Results

/-!
# Which texts are records

A text that is one object is a metric or it is refused, and this module says which, for every
object: whatever the order of its members, the white space, and the spelling of its strings and
numbers. Reading goes through the members one by one and may stop at any of them, so that it tells
which fault comes first. The conditions for a record do not know that order. What ties the two
together is that each field is a slot that is filled at most once: it is told, for any members that
are still to come, what is in it at their end (`Slot`).

* `IsRecord`: the members of an object are the fields of a record;
* `Record.Stands`, `Record.Refused`: the metric that a record stands for, and why it is refused;
* `RecordDraft.take`, `readRecord_spells`: an object is read member by member;
* `recordOf?_eq_some_iff`: what has been taken, told without the order;
* `answersObject_decodeRecord`, `answersObjects_decodeRecords`: one record, and a list of them;
* `decodes_by_grammar`: every text that is an object or a list of objects.
-/

namespace Telemetry

open Json

/-! ### What a record is -/

/-- What the value under a key may be where it may also be missing or `null`. -/
def Held {α : Type} (members : List (Option String × Tree)) (key : String)
    (read : Numeral → Option α) : Option α → Prop
  | none => ∀ t, (some key, t) ∈ members → t = .null
  | some a => ∃ n, (some key, .number n) ∈ members ∧ read n = some a

/-- **The members of an object are the fields of a record.** -/
structure IsRecord (members : List (Option String × Tree)) (r : Record) : Prop where
  /-- Every key is the name of a field. -/
  known : ∀ m ∈ members, ∃ key ∈ recordFields, m.1 = some key
  /-- No key occurs twice. -/
  once : (members.map Prod.fst).Nodup
  /-- There is a name, and it is a text. -/
  id : (some "id", .text (some r.id)) ∈ members
  /-- There is a word for the kind, and it is a text. -/
  type : (some "type", .text (some r.type)) ∈ members
  /-- The value of a counter is a whole number of 64 bits, if there is one. -/
  delta : Held members "delta" Numeral.int64? r.delta
  /-- The value of a gauge is a number that is not out of range, if there is one. -/
  value : Held members "value" Numeral.double? r.value

/-- **The metric that a record stands for.** The value is that of the field which the kind selects;
the other one does not matter. -/
def Record.Stands (r : Record) (m : Metric) : Prop :=
  r.id = m.name ∧ r.type = m.kind.tag ∧
    match m.value with
      | .gauge x => r.value = some x
      | .counter n => r.delta = some n

/-- **Why a record is refused.** The first of the three reasons is the answer. -/
inductive Record.Refused (r : Record) : Failure → Prop
  /-- There is no such kind. -/
  | kind : (∀ k : Kind, r.type ≠ k.tag) → r.Refused (.unknownKind r.type)
  /-- A gauge without a value. -/
  | level : r.type = "gauge" → r.value = none →
      r.Refused (.badValue ("gauge " ++ r.id ++ " has no value"))
  /-- A counter without a value. -/
  | total : r.type = "counter" → r.delta = none →
      r.Refused (.badValue ("counter " ++ r.id ++ " has no delta"))
  /-- A gauge without a name. -/
  | gauge (x : Binary64) : r.type = "gauge" → r.value = some x → r.id = "" → r.Refused .emptyName
  /-- A counter without a name. -/
  | counter (n : Int64) : r.type = "counter" → r.delta = some n → r.id = "" → r.Refused .emptyName

section

variable {r : Record}

theorem Record.toMetric_gauge (h : r.type = "gauge") :
    r.toMetric = match r.value with
      | some x => Metric.ofValue r.id (.gauge x)
      | none => .error (.badValue ("gauge " ++ r.id ++ " has no value")) := by
  rw [toMetric, h]
  rfl

theorem Record.toMetric_counter (h : r.type = "counter") :
    r.toMetric = match r.delta with
      | some n => Metric.ofValue r.id (.counter n)
      | none => .error (.badValue ("counter " ++ r.id ++ " has no delta")) := by
  rw [toMetric, h]
  rfl

theorem Record.toMetric_unknown (hgauge : r.type ≠ "gauge") (hcounter : r.type ≠ "counter") :
    r.toMetric = .error (.unknownKind r.type) := by
  have htag : Kind.ofTag r.type = .error (.unknownKind r.type) :=
    (if_neg hgauge).trans (if_neg hcounter)
  rw [toMetric, htag]
  rfl

/-- Without a name there is no metric. -/
theorem ofValue_eq_error_iff {name : String} {v : Value} {e : Failure} :
    Metric.ofValue name v = .error e ↔ name = "" ∧ e = .emptyName := by
  rw [Metric.ofValue]
  split
  · rename_i hname
    constructor
    · intro h
      cases h
      exact ⟨hname, rfl⟩
    · rintro ⟨-, rfl⟩
      rfl
  · rename_i hname
    constructor
    · intro h
      cases h
    · intro h
      exact absurd h.1 hname

/-- A record is taken for the metric that it stands for, and for no other. -/
theorem Record.toMetric_eq_ok_iff {m : Metric} : r.toMetric = .ok m ↔ r.Stands m := by
  obtain ⟨name, value, named⟩ := m
  constructor
  · intro h
    obtain ⟨k, hk, h⟩ := bind_eq_ok h
    rw [Kind.ofTag_eq_ok_iff] at hk
    cases k with
    | gauge =>
      cases hv : r.value with
      | none => simp only [hv] at h; cases h
      | some x =>
        simp only [hv] at h
        obtain ⟨rfl, rfl⟩ := Metric.ofValue_eq_ok_iff.1 h
        exact ⟨rfl, hk, hv⟩
    | counter =>
      cases hv : r.delta with
      | none => simp only [hv] at h; cases h
      | some n =>
        simp only [hv] at h
        obtain ⟨rfl, rfl⟩ := Metric.ofValue_eq_ok_iff.1 h
        exact ⟨rfl, hk, hv⟩
  · rintro ⟨hid, htype, hvalue⟩
    cases value with
    | gauge x =>
      rw [toMetric_gauge htype, show r.value = some x from hvalue]
      exact Metric.ofValue_eq_ok_iff.2 ⟨hid.symm, rfl⟩
    | counter n =>
      rw [toMetric_counter htype, show r.delta = some n from hvalue]
      exact Metric.ofValue_eq_ok_iff.2 ⟨hid.symm, rfl⟩

/-- It is refused for the first reason there is. -/
theorem Record.toMetric_eq_error_iff {e : Failure} : r.toMetric = .error e ↔ r.Refused e := by
  constructor
  · intro h
    by_cases hgauge : r.type = "gauge"
    · rw [toMetric_gauge hgauge] at h
      cases hv : r.value with
      | none =>
        rw [hv] at h
        cases h
        exact .level hgauge hv
      | some x =>
        rw [hv] at h
        obtain ⟨hid, rfl⟩ := ofValue_eq_error_iff.1 h
        exact .gauge x hgauge hv hid
    · by_cases hcounter : r.type = "counter"
      · rw [toMetric_counter hcounter] at h
        cases hv : r.delta with
        | none =>
          rw [hv] at h
          cases h
          exact .total hcounter hv
        | some n =>
          rw [hv] at h
          obtain ⟨hid, rfl⟩ := ofValue_eq_error_iff.1 h
          exact .counter n hcounter hv hid
      · rw [toMetric_unknown hgauge hcounter] at h
        cases h
        refine .kind fun k => ?_
        cases k
        · exact hgauge
        · exact hcounter
  · rintro (h | ⟨htype, hv⟩ | ⟨htype, hv⟩ | ⟨x, htype, hv, hid⟩ | ⟨n, htype, hv, hid⟩)
    · exact toMetric_unknown (h .gauge) (h .counter)
    · rw [toMetric_gauge htype, hv]
    · rw [toMetric_counter htype, hv]
    · rw [toMetric_gauge htype, hv]
      exact ofValue_eq_error_iff.2 ⟨hid, rfl⟩
    · rw [toMetric_counter htype, hv]
      exact ofValue_eq_error_iff.2 ⟨hid, rfl⟩

/-- It is never refused as something that is no record. -/
theorem Record.not_refused_badRequest {why : String} : ¬r.Refused (.badRequest why) := by
  rintro ⟨⟩

end

/-! ### Member by member -/

/-- **A member taken** into what has been gathered of a record, unless its key is unknown or has
occurred before, or its value is of the wrong type. -/
def RecordDraft.take (d : RecordDraft) : Option String × Tree → Option RecordDraft
  | (none, _) => none
  | (some key, t) =>
    if key = "id" then
      if d.id.isSome then none else t.text?.map fun v => { d with id := some v }
    else if key = "type" then
      if d.type.isSome then none else t.text?.map fun v => { d with type := some v }
    else if key = "delta" then
      if d.delta.isSome then none
      else (t.held? Numeral.int64?).map fun v => { d with delta := some v }
    else if key = "value" then
      if d.value.isSome then none
      else (t.held? Numeral.double?).map fun v => { d with value := some v }
    else none

/-- The fields of a record, from the members of an object. -/
def recordOf? (members : List (Option String × Tree)) : Option Record :=
  (members.foldlM RecordDraft.take ⟨none, none, none, none⟩).bind fun d =>
    match d.id, d.type with
      | some id, some type => some ⟨id, type, d.delta.getD none, d.value.getD none⟩
      | _, _ => none

theorem readColon_blank {ws : List Char} (hws : Blank ws) (text : Octets) :
    readColon (octetsOfChars ws ++ ascii ':' :: text) = .ok text := by
  rw [readColon, skipSpace_blank hws, skipSpace_cons (by decide)]
  rfl

/-- A fault of an object is a fault. -/
theorem exists_stopObject_error {α : Type} (fault : Fault) (text : Octets) :
    ∃ e, (stopObject fault text : Except Stop α) = .error e := by
  rw [stopObject]
  split <;> exact ⟨_, rfl⟩

/-- A slot that is filled already is a fault, and one that is not is filled. -/
theorem finds_slot {α σ : Type} {slot : Option α} {o : Option α} {fill : α → σ} {fault : Fault}
    {text behind rest : Octets} {read : Octets → Except Stop (α × Octets)}
    (hcolon : readColon text = .ok behind) (hread : Finds o rest (read behind)) :
    Finds (if slot.isSome then none else o.map fill) rest
      (if slot.isSome then stopObject fault text
        else do
          let (v, text) ← read (← readColon text)
          .ok (fill v, text)) := by
  split
  · exact exists_stopObject_error fault text
  · rw [hcolon]
    simp only [bind, Except.bind]
    cases o with
    | none =>
      obtain ⟨e, he⟩ := hread
      rw [he]
      exact ⟨e, rfl⟩
    | some a =>
      rw [show read behind = .ok (a, rest) from hread]
      rfl

/-- **The reader takes members so.** -/
theorem takesMembers_readRecordEntry : TakesMembers readRecordEntry RecordDraft.take where
  takes key d t ws ws' cs rest hws hws' ht hrest := by
    have hcolon := readColon_blank hws (octetsOfChars ws' ++ (octetsOfChars cs ++ rest))
    have hstring : Finds t.text? rest
        (readString (octetsOfChars ws' ++ (octetsOfChars cs ++ rest))) := by
      have hread := readString_spells ht rest
      rwa [readString, ← skipSpace_blank hws'] at hread
    have hoptional : ∀ {α : Type} {read : Octets → Except Stop (α × Octets)}
        {numeral : Numeral → Option α}, ReadsNumerals read numeral →
        Finds (t.held? numeral) rest
          (readOptional read (octetsOfChars ws' ++ (octetsOfChars cs ++ rest))) := by
      intro α read numeral hnumeral
      have hread := readOptional_spells hnumeral ht hrest
      rwa [readOptional, ← skipSpace_blank hws'] at hread
    rw [readRecordEntry, RecordDraft.take]
    by_cases hid : key = "id"
    · rw [if_pos hid, if_pos hid]
      exact finds_slot hcolon hstring
    rw [if_neg hid, if_neg hid]
    by_cases htype : key = "type"
    · rw [if_pos htype, if_pos htype]
      exact finds_slot hcolon hstring
    rw [if_neg htype, if_neg htype]
    by_cases hdelta : key = "delta"
    · rw [if_pos hdelta, if_pos hdelta]
      exact finds_slot hcolon (hoptional readsNumerals_readInteger)
    rw [if_neg hdelta, if_neg hdelta]
    by_cases hvalue : key = "value"
    · rw [if_pos hvalue, if_pos hvalue]
      exact finds_slot hcolon (hoptional readsNumerals_readReal)
    rw [if_neg hvalue, if_neg hvalue]
    exact exists_stopObject_error _ _
  key d t := rfl

/-- **An object is read** as the record that its members are. -/
theorem readRecord_spells {members : List (Option String × Tree)} {cs : List Char}
    (h : Spells (.object members) cs) (rest : Octets) :
    Finds (recordOf? members) rest (readRecord (octetsOfChars cs ++ rest)) := by
  cases h with
  | @object _ ws cs hws hmembers =>
    have hoctets : octetsOfChars ('{' :: (ws ++ (cs ++ ['}']))) ++ rest =
        ascii '{' :: (octetsOfChars ws ++ (octetsOfChars cs ++ ascii '}' :: rest)) := by
      simp only [octetsOfChars_cons, octetsOfChars_append, octetsOfChars_nil, List.append_assoc]
      rfl
    obtain ⟨ws', hws', hread⟩ := readEntries_spells takesMembers_readRecordEntry hws hmembers
      ⟨none, none, none, none⟩ rest
    rw [hoctets, readRecord, readFramed, skipSpace_cons (by decide)]
    simp only
    rw [if_neg (by decide), if_pos trivial, readRecordObject, recordOf?]
    cases hfold : members.foldlM RecordDraft.take ⟨none, none, none, none⟩ with
    | none =>
      rw [hfold] at hread
      obtain ⟨e, he⟩ := hread
      rw [he]
      exact ⟨e, rfl⟩
    | some d =>
      rw [hfold] at hread
      rw [show readEntries _ _ _ _ _ = .ok (d, _) from hread]
      obtain ⟨id, type, delta, value⟩ := d
      simp only [bind, Except.bind, Option.bind]
      have hclose : closeObject (octetsOfChars ws' ++ ascii '}' :: rest) = .ok rest := by
        rw [closeObject, skipSpace_blank hws', skipSpace_cons (by decide)]
        rfl
      rcases id with _ | id
      · exact exists_stopObject_error _ _
      · rcases type with _ | type
        · exact exists_stopObject_error _ _
        · simp only [hclose]
          rfl

/-! ### What has been taken, told without the order -/

/-- **A slot at the end of members**, told by what was in it in front of them: no member fills it,
or it was empty and one of them fills it. -/
def Slot {α : Type} (members : List (Option String × Tree)) (key : String) (read : Tree → Option α)
    (before after : Option α) : Prop :=
  (some key ∉ members.map Prod.fst ∧ after = before) ∨
    (before = none ∧ ∃ t v, (some key, t) ∈ members ∧ read t = some v ∧ after = some v)

section

variable {α : Type} {members : List (Option String × Tree)} {key : String} {t : Tree}
  {read : Tree → Option α} {before after : Option α}

/-- A member with another key leaves a slot alone. -/
theorem slot_cons_of_ne {other : String} (h : other ≠ key) :
    Slot ((some other, t) :: members) key read before after ↔
      Slot members key read before after := by
  have hne : some key ≠ some other := fun he => h (Option.some.inj he).symm
  have hpair : ∀ u, (some key, u) ∈ (some other, t) :: members ↔ (some key, u) ∈ members := by
    intro u
    rw [List.mem_cons, or_iff_right]
    exact fun he => hne (congrArg Prod.fst he)
  simp only [Slot, List.map_cons, List.mem_cons, hne, false_or, hpair]

/-- A member that fills a slot is the only one that does. -/
theorem slot_cons_self :
    (some key ∉ members.map Prod.fst ∧ Slot ((some key, t) :: members) key read before after) ↔
      before = none ∧ ∃ v, read t = some v ∧ Slot members key read (some v) after := by
  constructor
  · rintro ⟨hnew, ⟨h, -⟩ | ⟨rfl, u, v, hu, hv, rfl⟩⟩
    · exact absurd List.mem_cons_self h
    · rcases List.mem_cons.1 hu with hu | hu
      · cases hu
        exact ⟨rfl, v, hv, .inl ⟨hnew, rfl⟩⟩
      · exact absurd (List.mem_map_of_mem hu) hnew
  · rintro ⟨rfl, v, hv, ⟨hnew, rfl⟩ | ⟨h, -⟩⟩
    · exact ⟨hnew, .inr ⟨rfl, t, v, List.mem_cons_self, hv, rfl⟩⟩
    · cases h

end

/-- The four slots at the end of members. -/
structure Filled (members : List (Option String × Tree)) (d d' : RecordDraft) : Prop where
  /-- The name. -/
  id : Slot members "id" Tree.text? d.id d'.id
  /-- The word for the kind. -/
  type : Slot members "type" Tree.text? d.type d'.type
  /-- The value of a counter. -/
  delta : Slot members "delta" (Tree.held? Numeral.int64?) d.delta d'.delta
  /-- The value of a gauge. -/
  value : Slot members "value" (Tree.held? Numeral.double?) d.value d'.value

theorem filled_iff {members : List (Option String × Tree)} {d d' : RecordDraft} :
    Filled members d d' ↔ Slot members "id" Tree.text? d.id d'.id ∧
      Slot members "type" Tree.text? d.type d'.type ∧
      Slot members "delta" (Tree.held? Numeral.int64?) d.delta d'.delta ∧
      Slot members "value" (Tree.held? Numeral.double?) d.value d'.value :=
  ⟨fun h => ⟨h.id, h.type, h.delta, h.value⟩, fun h => ⟨h.1, h.2.1, h.2.2.1, h.2.2.2⟩⟩

/-- **The slot of a key is filled**, while the other slots are left alone and no member behind has
that key. -/
theorem fill_slot_iff {α : Type} {members : List (Option String × Tree)} {key : String} {t : Tree}
    {read : Tree → Option α} {before after : Option α} {fill : α → RecordDraft} {others : Prop}
    {d' : RecordDraft}
    (hfill : ∀ v, Filled members (fill v) d' ↔ Slot members key read (some v) after ∧ others) :
    (some key ∉ members.map Prod.fst ∧ Slot ((some key, t) :: members) key read before after ∧
        others) ↔
      ∃ d, (if before.isSome then none else (read t).map fill) = some d ∧ Filled members d d' := by
  rw [← and_assoc, slot_cons_self]
  cases before with
  | some a => exact ⟨fun h => (by cases h.1.1), fun ⟨_, h, _⟩ => (by cases h)⟩
  | none =>
    constructor
    · rintro ⟨⟨-, v, hv, hslot⟩, hothers⟩
      exact ⟨fill v, by rw [hv]; rfl, (hfill v).2 ⟨hslot, hothers⟩⟩
    · rintro ⟨d, htake, hd⟩
      obtain ⟨v, hv, rfl⟩ := Option.map_eq_some_iff.1 htake
      obtain ⟨hslot, hothers⟩ := (hfill v).1 hd
      exact ⟨⟨rfl, v, hv, hslot⟩, hothers⟩

/-- The key of a member fills its slot, and no member behind has that key. -/
theorem filled_cons {key : String} (hkey : key ∈ recordFields) (t : Tree)
    (members : List (Option String × Tree)) (d d' : RecordDraft) :
    (some key ∉ members.map Prod.fst ∧ Filled ((some key, t) :: members) d d') ↔
      ∃ after, d.take (some key, t) = some after ∧ Filled members after d' := by
  have hsecond : ∀ a b c e : Prop, a ∧ b ∧ c ∧ e ↔ b ∧ a ∧ c ∧ e := by tauto
  have hthird : ∀ a b c e : Prop, a ∧ b ∧ c ∧ e ↔ c ∧ a ∧ b ∧ e := by tauto
  have hfourth : ∀ a b c e : Prop, a ∧ b ∧ c ∧ e ↔ e ∧ a ∧ b ∧ c := by tauto
  simp only [recordFields, List.mem_cons, List.not_mem_nil, or_false] at hkey
  rcases hkey with rfl | rfl | rfl | rfl
  · rw [filled_iff]
    simp (disch := decide) only [slot_cons_of_ne]
    exact fill_slot_iff fun v => filled_iff
  · rw [filled_iff.trans (hsecond _ _ _ _)]
    simp (disch := decide) only [slot_cons_of_ne]
    refine fill_slot_iff fun v => ?_
    exact filled_iff.trans (hsecond ..)
  · rw [filled_iff.trans (hthird _ _ _ _)]
    simp (disch := decide) only [slot_cons_of_ne]
    refine fill_slot_iff fun v => ?_
    exact filled_iff.trans (hthird ..)
  · rw [filled_iff.trans (hfourth _ _ _ _)]
    simp (disch := decide) only [slot_cons_of_ne]
    refine fill_slot_iff fun v => ?_
    exact filled_iff.trans (hfourth ..)

/-- Only a member with a known key is taken. -/
theorem exists_key_of_take {m : Option String × Tree} {d after : RecordDraft}
    (h : d.take m = some after) : ∃ key ∈ recordFields, m.1 = some key := by
  obtain ⟨_ | key, t⟩ := m
  · cases h
  · refine ⟨key, ?_, rfl⟩
    by_contra hkey
    simp only [recordFields, List.mem_cons, List.not_mem_nil, or_false, not_or] at hkey
    obtain ⟨hid, htype, hdelta, hvalue⟩ := hkey
    rw [RecordDraft.take, if_neg hid, if_neg htype, if_neg hdelta, if_neg hvalue] at h
    cases h

/-- **What has been taken of members** is told by their slots, if every key is known and none
occurs twice. -/
theorem foldlM_take_eq_some_iff (members : List (Option String × Tree)) (d d' : RecordDraft) :
    members.foldlM RecordDraft.take d = some d' ↔
      (∀ m ∈ members, ∃ key ∈ recordFields, m.1 = some key) ∧ (members.map Prod.fst).Nodup ∧
        Filled members d d' := by
  induction members generalizing d with
  | nil =>
    obtain ⟨id, type, delta, value⟩ := d
    obtain ⟨id', type', delta', value'⟩ := d'
    constructor
    · intro h
      cases h
      exact ⟨fun m hm => absurd hm List.not_mem_nil, List.nodup_nil,
        .inl ⟨List.not_mem_nil, rfl⟩, .inl ⟨List.not_mem_nil, rfl⟩, .inl ⟨List.not_mem_nil, rfl⟩,
        .inl ⟨List.not_mem_nil, rfl⟩⟩
    · rintro ⟨-, -, hid, htype, hdelta, hvalue⟩
      simp only [Slot, List.map_nil, List.not_mem_nil, not_false_eq_true, true_and, false_and,
        exists_false, and_false, or_false] at hid htype hdelta hvalue
      rw [hid, htype, hdelta, hvalue]
      rfl
  | cons m members ih =>
    have hstep : (m :: members).foldlM RecordDraft.take d = some d' ↔ ∃ after,
        d.take m = some after ∧ members.foldlM RecordDraft.take after = some d' := by
      rw [List.foldlM_cons]
      exact Option.bind_eq_some_iff
    simp only [hstep, ih, List.forall_mem_cons, List.map_cons, List.nodup_cons]
    obtain ⟨key, t⟩ := m
    constructor
    · rintro ⟨after, htake, hknown, honce, hfilled⟩
      obtain ⟨key, hkey, rfl⟩ := exists_key_of_take htake
      obtain ⟨hnew, hfilled⟩ := (filled_cons hkey t members d d').2 ⟨after, htake, hfilled⟩
      exact ⟨⟨⟨key, hkey, rfl⟩, hknown⟩, ⟨hnew, honce⟩, hfilled⟩
    · rintro ⟨⟨⟨key, hkey, rfl⟩, hknown⟩, ⟨hnew, honce⟩, hfilled⟩
      obtain ⟨after, htake, hfilled⟩ := (filled_cons hkey t members d d').1 ⟨hnew, hfilled⟩
      exact ⟨after, htake, hknown, honce, hfilled⟩

section

variable {members : List (Option String × Tree)} {key : String}

/-- A slot for a text that is filled from empty holds the text of its member. -/
theorem slot_text_iff {s : String} :
    Slot members key Tree.text? none (some s) ↔ (some key, .text (some s)) ∈ members := by
  constructor
  · rintro (⟨-, h⟩ | ⟨-, t, v, ht, hv, h⟩)
    · cases h
    · cases h
      cases t with
      | text s' => cases hv; exact ht
      | _ => cases hv
  · exact fun h => .inr ⟨rfl, _, s, h, rfl, rfl⟩

/-- A slot for a number that is filled from empty, or is not, holds what its member holds. -/
theorem exists_slot_held_iff {α : Type} {read : Numeral → Option α} {held : Option α}
    (honce : (members.map Prod.fst).Nodup) :
    (∃ after, Slot members key (Tree.held? read) none after ∧ after.getD none = held) ↔
      Held members key read held := by
  have hunique : ∀ {t u}, (some key, t) ∈ members → (some key, u) ∈ members → t = u := by
    intro t u ht hu
    exact congrArg Prod.snd (List.inj_on_of_nodup_map honce ht hu rfl)
  constructor
  · rintro ⟨after, ⟨hnew, rfl⟩ | ⟨-, t, v, ht, hv, rfl⟩, rfl⟩
    · exact fun t ht => absurd (List.mem_map_of_mem ht) hnew
    · cases t with
      | null => cases hv; exact fun u hu => hunique hu ht
      | number n =>
        obtain ⟨a, ha, rfl⟩ := Option.map_eq_some_iff.1 hv
        exact ⟨n, ht, ha⟩
      | _ => cases hv
  · intro h
    cases held with
    | some a =>
      obtain ⟨n, hn, ha⟩ := h
      exact ⟨some (some a), .inr ⟨rfl, _, _, hn, Option.map_eq_some_iff.2 ⟨a, ha, rfl⟩, rfl⟩, rfl⟩
    | none =>
      by_cases hkey : some key ∈ members.map Prod.fst
      · obtain ⟨⟨_, t⟩, ht, rfl⟩ := List.mem_map.1 hkey
        have hnull := h t ht
        subst hnull
        exact ⟨some none, .inr ⟨rfl, _, _, ht, rfl, rfl⟩, rfl⟩
      · exact ⟨none, .inl ⟨hkey, rfl⟩, rfl⟩

end

/-- **The members of an object are read as a record exactly if they are its fields.** -/
theorem recordOf?_eq_some_iff (members : List (Option String × Tree)) (r : Record) :
    recordOf? members = some r ↔ IsRecord members r := by
  rw [recordOf?, Option.bind_eq_some_iff]
  simp only [foldlM_take_eq_some_iff]
  constructor
  · rintro ⟨⟨id, type, delta, value⟩, ⟨hknown, honce, hid, htype, hdelta, hvalue⟩, h⟩
    rcases id with _ | id
    · cases h
    rcases type with _ | type
    · cases h
    cases h
    exact ⟨hknown, honce, slot_text_iff.1 hid, slot_text_iff.1 htype,
      (exists_slot_held_iff honce).1 ⟨delta, hdelta, rfl⟩,
      (exists_slot_held_iff honce).1 ⟨value, hvalue, rfl⟩⟩
  · rintro ⟨hknown, honce, hid, htype, hdelta, hvalue⟩
    obtain ⟨id, type, _, _⟩ := r
    obtain ⟨delta, hdelta', rfl⟩ := (exists_slot_held_iff honce).2 hdelta
    obtain ⟨value, hvalue', rfl⟩ := (exists_slot_held_iff honce).2 hvalue
    exact ⟨⟨some id, some type, delta, value⟩,
      ⟨hknown, honce, slot_text_iff.2 hid, slot_text_iff.2 htype, hdelta', hvalue'⟩, rfl⟩

/-! ### Whole texts -/

/-- Nothing but white space is left behind a value. -/
theorem closeText_blank {ws : List Char} (hws : Blank ws) :
    closeText (octetsOfChars ws) = .ok () := by
  have hskip := skipSpace_blank hws []
  rw [List.append_nil] at hskip
  rw [closeText, hskip]
  rfl

/-- What is found in a text in front of white space is what the text is. -/
theorem toOption_readAll {α : Type} {o : Option α} {read : Octets → Except Stop (α × Octets)}
    {ws : List Char} (hws : Blank ws) {body : Octets} (h : Finds o (octetsOfChars ws) (read body)) :
    (readAll read body).toOption = o := by
  cases o with
  | none =>
    obtain ⟨e, he⟩ := h
    rw [readAll, he]
    rfl
  | some a =>
    rw [readAll, show read body = .ok (a, _) from h]
    simp only [bind, Except.bind, closeText_blank hws]
    rfl

/-- **A text that is one object** is read as the record that its members are. -/
theorem toOption_readAll_readRecord {members : List (Option String × Tree)} {body : Octets}
    (h : IsText (.object members) body) :
    (readAll readRecord body).toOption = recordOf? members := by
  obtain ⟨ws, cs, ws', hws, hcs, hws', rfl⟩ := h
  have hskip : readRecord (octetsOfChars (ws ++ (cs ++ ws'))) =
      readRecord (octetsOfChars cs ++ octetsOfChars ws') := by
    rw [octetsOfChars_append, octetsOfChars_append, readRecord, readRecord, readFramed, readFramed,
      skipSpace_blank hws]
  refine toOption_readAll hws' ?_
  rw [hskip]
  exact readRecord_spells hcs (octetsOfChars ws')

/-- The record that a value is, if it is an object. -/
def recordIn? : Tree → Option Record
  | .object members => recordOf? members
  | _ => none

/-- **A text that is a list of objects** is read as the records that their members are. -/
theorem toOption_readAll_readRecords {objects : List (List (Option String × Tree))}
    {body : Octets} (h : IsText (.list (objects.map .object)) body) :
    (readAll readRecords body).toOption = objects.mapM recordOf? := by
  obtain ⟨ws, cs, ws', hws, hcs, hws', rfl⟩ := h
  refine toOption_readAll hws' ?_
  cases hcs with
  | @list _ blank cs hblank hitems =>
    have hoctets : octetsOfChars (ws ++ (('[' :: (blank ++ (cs ++ [']']))) ++ ws')) =
        octetsOfChars ws ++ ascii '[' :: (octetsOfChars blank ++
          (octetsOfChars cs ++ ascii ']' :: octetsOfChars ws')) := by
      simp only [octetsOfChars_cons, octetsOfChars_append, octetsOfChars_nil, List.append_assoc,
        List.cons_append]
      rfl
    have hitem : ∀ u ∈ objects.map Tree.object, ∀ cs rest, Spells u cs → Stops rest →
        Finds (recordIn? u) rest (readRecord (octetsOfChars cs ++ rest)) := by
      intro u hu cs rest hspells _
      obtain ⟨members, -, rfl⟩ := List.mem_map.1 hu
      exact readRecord_spells hspells rest
    obtain ⟨behind, hbehind, hread⟩ := readItems_spells hitem hblank hitems (octetsOfChars ws')
    have hmapM : (objects.map Tree.object).mapM recordIn? = objects.mapM recordOf? :=
      List.mapM_map
    have hclose : closeList (octetsOfChars behind ++ ascii ']' :: octetsOfChars ws') =
        .ok (octetsOfChars ws') := by
      rw [closeList, skipSpace_blank hbehind, skipSpace_cons (by decide)]
      rfl
    rw [hoctets, readRecords, skipSpace_blank hws, skipSpace_cons (by decide)]
    simp only
    rw [if_pos trivial]
    rw [hmapM] at hread
    cases hobjects : objects.mapM recordOf? with
    | none =>
      rw [hobjects] at hread
      obtain ⟨e, he⟩ := hread
      rw [he]
      exact ⟨e, rfl⟩
    | some records =>
      rw [hobjects] at hread
      rw [show readItems readRecord _ true _ = .ok (records, _) from hread]
      simp only [bind, Except.bind, hclose]
      rfl

/-! ### Which texts are metrics -/

/-- **The answer for one object**: the metric that its record stands for, or that it is no record,
or why its record is refused. -/
structure AnswersObject (members : List (Option String × Tree)) (answer : Except Failure Metric) :
    Prop where
  /-- It is accepted exactly as the metric that its record stands for. -/
  accepted : ∀ m, answer = .ok m ↔ ∃ r, IsRecord members r ∧ r.Stands m
  /-- What is no record is a bad request. -/
  faulty : (∃ why, answer = .error (.badRequest why)) ↔ ¬∃ r, IsRecord members r
  /-- What is a record is refused with the first reason there is. -/
  refused : ∀ e, (∀ why, e ≠ .badRequest why) →
    (answer = .error e ↔ ∃ r, IsRecord members r ∧ r.Refused e)

/-- **The answer for a list of objects**: the metrics in order if each object is one; otherwise that
an object is no record, wherever it stands; otherwise why the first one that is refused is. -/
structure AnswersObjects (objects : List (List (Option String × Tree)))
    (answer : Except Failure (List Metric)) : Prop where
  /-- All of them are accepted, each as the metric that its record stands for. -/
  accepted : ∀ ms, answer = .ok ms ↔
    List.Forall₂ (fun members m => ∃ r, IsRecord members r ∧ r.Stands m) objects ms
  /-- One that is no record makes a bad request of the whole list. -/
  faulty : (∃ why, answer = .error (.badRequest why)) ↔
    ∃ members ∈ objects, ¬∃ r, IsRecord members r
  /-- If all of them are records, the first one that is refused is the answer. -/
  refused : ∀ e, (∀ why, e ≠ .badRequest why) →
    (answer = .error e ↔ (∀ members ∈ objects, ∃ r, IsRecord members r) ∧
      ∃ before members behind, objects = before ++ members :: behind ∧
        (∀ others ∈ before, ∃ m r, IsRecord others r ∧ r.Stands m) ∧
        ∃ r, IsRecord members r ∧ r.Refused e)

/-- There is one record at most. -/
theorem IsRecord.unique {members : List (Option String × Tree)} {r s : Record}
    (hr : IsRecord members r) (hs : IsRecord members s) : r = s :=
  Option.some.inj (((recordOf?_eq_some_iff members r).2 hr).symm.trans
    ((recordOf?_eq_some_iff members s).2 hs))

/-- The answer for one object, but for the wording of what is wrong with one that is no record. -/
def answerOf (members : List (Option String × Tree)) : Except Failure Metric :=
  match recordOf? members with
  | some r => r.toMetric
  | none => .error (.badRequest "")

/-- Whatever the wording is, it is the answer. -/
theorem answersObject_of_none {members : List (Option String × Tree)}
    (h : recordOf? members = none) (why : String) :
    AnswersObject members (.error (.badRequest why)) := by
  have hnone : ¬∃ r, IsRecord members r := by
    rintro ⟨r, hr⟩
    rw [(recordOf?_eq_some_iff members r).2 hr] at h
    cases h
  constructor
  · exact fun m => ⟨fun hm => (by cases hm), fun ⟨r, hr, _⟩ => absurd ⟨r, hr⟩ hnone⟩
  · exact ⟨fun _ => hnone, fun _ => ⟨_, rfl⟩⟩
  · refine fun e he => ⟨fun hm => ?_, fun ⟨r, hr, _⟩ => absurd ⟨r, hr⟩ hnone⟩
    cases hm
    exact absurd rfl (he _)

theorem answersObject_of_some {members : List (Option String × Tree)} {r : Record}
    (h : recordOf? members = some r) : AnswersObject members r.toMetric := by
  have hr := (recordOf?_eq_some_iff members r).1 h
  have hself : ∀ P : Record → Prop, P r ↔ ∃ s, IsRecord members s ∧ P s := fun P =>
    ⟨fun hp => ⟨r, hr, hp⟩, fun ⟨_, hs, hp⟩ => hr.unique hs ▸ hp⟩
  constructor
  · exact fun m => Record.toMetric_eq_ok_iff.trans (hself (·.Stands m))
  · refine ⟨fun ⟨why, hwhy⟩ => ?_, fun hno => absurd ⟨r, hr⟩ hno⟩
    exact absurd (Record.toMetric_eq_error_iff.1 hwhy) Record.not_refused_badRequest
  · exact fun e _ => Record.toMetric_eq_error_iff.trans (hself (·.Refused e))

theorem answersObject_answerOf (members : List (Option String × Tree)) :
    AnswersObject members (answerOf members) := by
  rw [answerOf]
  split
  · rename_i r hr
    exact answersObject_of_some hr
  · rename_i hnone
    exact answersObject_of_none hnone ""

/-- **One object is answered** as its members say. -/
theorem answersObject_decodeRecord {members : List (Option String × Tree)} {body : Octets}
    (h : IsText (.object members) body) : AnswersObject members (decodeRecord body) := by
  have hread := toOption_readAll_readRecord h
  rw [decodeRecord]
  cases hall : readAll readRecord body with
  | error why =>
    rw [hall] at hread
    exact answersObject_of_none hread.symm _
  | ok r =>
    rw [hall] at hread
    exact answersObject_of_some hread.symm

/-- If all objects are records, they are answered one after the other. -/
theorem mapM_answerOf {objects : List (List (Option String × Tree))} {rs : List Record}
    (h : objects.mapM recordOf? = some rs) :
    objects.mapM answerOf = rs.mapM Record.toMetric := by
  induction objects generalizing rs with
  | nil =>
    cases h
    rfl
  | cons members objects ih =>
    rw [mapM_option_cons, Option.bind_eq_some_iff] at h
    obtain ⟨r, hr, h⟩ := h
    obtain ⟨rs, hrs, rfl⟩ := Option.map_eq_some_iff.1 h
    rw [List.mapM_cons, List.mapM_cons, ih hrs, answerOf, hr]

/-- **A list of objects is answered** as their members say. -/
theorem answersObjects_decodeRecords {objects : List (List (Option String × Tree))}
    {body : Octets} (h : IsText (.list (objects.map .object)) body) :
    AnswersObjects objects (decodeRecords body) := by
  have hnone : ∀ members, recordOf? members = none ↔ ¬∃ r, IsRecord members r := by
    intro members
    simp only [← recordOf?_eq_some_iff, ← Option.isSome_iff_exists, Bool.not_eq_true,
      Option.isSome_eq_false_iff, Option.isNone_iff_eq_none]
  have hread := toOption_readAll_readRecords h
  rw [decodeRecords]
  cases hall : readAll readRecords body with
  | error why =>
    rw [hall] at hread
    have hsome := mapM_eq_none_iff.1 hread.symm
    simp only [hnone] at hsome
    obtain ⟨members, hmem, hno⟩ := hsome
    constructor
    · refine fun ms => ⟨fun hm => (by cases hm), fun hms => ?_⟩
      have hevery : (∀ members ∈ objects, ∃ r, IsRecord members r) ∧
          List.Forall₂ (fun _ _ => True) objects ms :=
        (List.forall₂_and_left _ _).1 (hms.imp fun _ _ ⟨r, hr, _⟩ => ⟨⟨r, hr⟩, trivial⟩)
      exact absurd (hevery.1 members hmem) hno
    · exact ⟨fun _ => ⟨members, hmem, hno⟩, fun _ => ⟨_, rfl⟩⟩
    · refine fun e he => ⟨fun hm => ?_, fun hm => absurd (hm.1 members hmem) hno⟩
      cases hm
      exact absurd rfl (he _)
  | ok rs =>
    rw [hall] at hread
    have hevery : ∀ members ∈ objects, ∃ r, IsRecord members r := by
      intro members hmem
      by_contra hno
      have hfail : objects.mapM recordOf? = none :=
        mapM_eq_none_iff.2 ⟨members, hmem, (hnone members).2 hno⟩
      rw [hfail] at hread
      cases hread
    simp only [← mapM_answerOf hread.symm]
    constructor
    · intro ms
      simp only [mapM_eq_ok_iff, (answersObject_answerOf _).accepted]
    · refine ⟨fun ⟨why, hwhy⟩ => ?_, fun ⟨members, hmem, hno⟩ => absurd (hevery members hmem) hno⟩
      obtain ⟨before, members, behind, rfl, -, hfault⟩ := mapM_eq_error_iff.1 hwhy
      have hno := (answersObject_answerOf members).faulty.1 ⟨why, hfault⟩
      exact absurd (hevery members (by simp)) hno
    · intro e he
      simp only [mapM_eq_error_iff, (answersObject_answerOf _).accepted,
        (answersObject_answerOf _).refused e he]
      exact (and_iff_right hevery).symm

/-- **Records are what the grammar says they are.** A text that is one object and a text that is a
list of objects are answered as their members say, however they are laid out. A numeral has a double
unless the reader reports it as out of range. -/
theorem decodes_by_grammar (body : Octets) :
    (∀ members, IsText (.object members) body → AnswersObject members (decodeRecord body)) ∧
    (∀ objects : List (List (Option String × Tree)), IsText (.list (objects.map .object)) body →
      AnswersObjects objects (decodeRecords body)) ∧
    ∀ n : Numeral, n.double? = none ↔ n.OutOfRange :=
  ⟨fun _ h => answersObject_decodeRecord h, fun _ h => answersObjects_decodeRecords h,
    fun n => n.double?_eq_none_iff⟩

/-- A counter with its name at the end, a `null` that does not matter, white space, and a letter and
a character beyond 16 bits that are spelled by their numbers. -/
def swappedChars : List Char :=
  '{' :: ("\"value\" : null,\n\"t\\u0079pe\":\"counter\",\"delta\":-12 ,".toList ++
    "\"id\":\"\\ud83d\\ude00\\/\"".toList ++ ['}'])

/-- The number in it. -/
def minusTwelve : Numeral := ⟨true, ⟨[1, 2], by decide, by decide⟩, none, none, by decide⟩

/-- Its members. -/
def swappedMembers : List (Option String × Tree) :=
  [(some "value", .null), (some "type", .text (some "counter")),
    (some "delta", .number minusTwelve), (some "id", .text (some "😀/"))]

theorem isText_swapped : IsText (.object swappedMembers) (octetsOfChars swappedChars) := by
  have hnone : Blank [] := by decide
  have hblank : Blank [' '] := by decide
  have hline : Blank ['\n'] := by decide
  -- the two strings that are not spelled as they are written
  have htype := SpellsMember.mk
    [.ofChar 't', .unit ⟨.ofNat 0 (by decide), .ofNat 0 (by decide), .ofNat 7 (by decide),
      .ofNat 9 (by decide)⟩, .ofChar 'p', .ofChar 'e'] hnone hnone (spells_stringChars "counter")
  have hname := Spells.text
    [.unit ⟨.ofNat 13 (by decide), .ofNat 8 (by decide), .ofNat 3 (by decide),
      .ofNat 13 (by decide)⟩, .unit ⟨.ofNat 13 (by decide), .ofNat 14 (by decide),
      .ofNat 0 (by decide), .ofNat 0 (by decide)⟩, .short '/' '/' (by decide)]
  have hmembers := Separated.cons (spellsMember_stringChars "value" hblank hblank .null) hnone hline
    (.cons htype hnone hnone (.cons (spellsMember_stringChars "delta" hnone hnone
      (.number minusTwelve)) hblank hnone
      (.last (spellsMember_stringChars "id" hnone hnone hname) hnone)))
  refine ⟨[], _, [], hnone, .object hnone hmembers, hnone, ?_⟩
  decide +kernel

/-- It is that counter. -/
theorem decodeRecord_swapped : ∃ named,
    decodeRecord (octetsOfChars swappedChars) = .ok ⟨"😀/", .counter (-12), named⟩ := by
  have hrecord : IsRecord swappedMembers ⟨"😀/", "counter", some (-12), none⟩ :=
    (recordOf?_eq_some_iff _ _).1 (by decide +kernel)
  have hnamed : "😀/" ≠ "" := by decide
  exact ⟨hnamed, (((decodes_by_grammar _).1 _ isText_swapped).accepted _).2
    ⟨_, hrecord, rfl, rfl, rfl⟩⟩

end Telemetry
