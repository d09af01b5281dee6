import Mathlib
import Telemetry.Record
import Telemetry.Proofs.Entries
import Telemetry.Proofs.RealText
import Telemetry.Proofs.RecordGrammar

/-!
# Records are read back

The words for a list of metrics can be read whatever the metrics are, and what is read of each of
them is known: its name, the word for its kind, its total, or the double that is read from the text
of its level (`Binary64.reread`). For what is written is a text of the grammar, in which a record is
an object with exactly three members, and the grammar says what a text with these members is read
as.

* `spells_objectChars`, `spells_listChars`: what is written for an object and for a list;
* `exists_numeral_intChars`, `exists_held_realChars`: and for a total and for a level;
* `Metric.members`, `exists_spells_recordChars`: the members of a record;
* `decodeRecord_eq`, `decodeRecords_eq`: every record taken for a metric, or refused;
* `decodeRecord_encodeRecord`, `decodeRecords_encodeRecords`: the same metrics, if each level comes
  back from its own text (`Binary64.ReadsBack`);
* `records_round_trip`: there and back, with what stands in between.
-/

namespace Telemetry

/-- A value that comes back from its own text: every total, and a level that does. -/
abbrev Value.ReadsBack (v : Value) : Prop := v.LevelIs Binary64.ReadsBack

/-- The fields that are read where a metric has been written. -/
def Metric.fields (m : Metric) : Record :=
  match m.value with
    | .gauge x => ⟨m.name, m.kind.tag, none, x.reread⟩
    | .counter n => ⟨m.name, m.kind.tag, some n, none⟩

/-- **What a metric becomes** when it has been written and is read: a counter is the same, a gauge
has the level that is read, and if none is read it is refused. -/
def Metric.reread (m : Metric) : Except Failure Metric :=
  match m.value with
    | .gauge x => match x.reread with
      | some y => .ok ⟨m.name, .gauge y, m.named⟩
      | none => .error (.badValue ("gauge " ++ m.name ++ " has no value"))
    | .counter _ => .ok m

/-- The fields that are read are taken for that metric. -/
theorem Record.toMetric_fields (m : Metric) : m.fields.toMetric = m.reread := by
  obtain ⟨name, value, named⟩ := m
  cases value with
  | gauge x =>
    cases hx : x.reread with
    | none =>
      simp only [Metric.fields, Metric.reread, hx]
      rfl
    | some y =>
      simp only [Metric.fields, Metric.reread, hx]
      exact Metric.ofValue_name_value ⟨name, .gauge y, named⟩
  | counter n => exact Metric.ofValue_name_value ⟨name, .counter n, named⟩

/-- A metric whose level comes back comes back itself. -/
theorem Metric.reread_of_readsBack {m : Metric} (hm : m.value.ReadsBack) : m.reread = .ok m := by
  obtain ⟨name, value, named⟩ := m
  cases value with
  | gauge x => simp only [reread, Binary64.ReadsBack.reread_eq hm]
  | counter n => rfl

namespace Json

/-! ### What is written is spelled -/

theorem blank_nil : Blank [] := fun _ h => absurd h List.not_mem_nil

/-- Nothing but a comma is written between two elements. -/
theorem separated_intersperse {α : Type} {Element : α → List Char → Prop} {as : List α}
    {css : List (List Char)} (h : List.Forall₂ Element as css) :
    Separated Element as (css.intersperse [',']).flatten := by
  induction h with
  | nil => exact .nil
  | @cons a cs as css ha hrest ih =>
    cases hrest with
    | nil =>
      show Separated Element [a] (cs ++ [])
      exact .last ha blank_nil
    | cons hb hrest =>
      rw [List.intersperse_cons_cons, List.flatten_cons, List.flatten_cons]
      exact .cons ha blank_nil blank_nil ih

/-- **An object is spelled** where one is written whose values are. -/
theorem spells_objectChars {members : List (Option String × Tree)}
    {entries : List (String × List Char)}
    (h : List.Forall₂ (fun m e => m.1 = some e.1 ∧ Spells m.2 e.2) members entries) :
    Spells (.object members) (objectChars entries) := by
  refine .object blank_nil (separated_intersperse ?_)
  rw [List.forall₂_map_right_iff]
  refine h.imp ?_
  rintro ⟨_, t⟩ e ⟨rfl, ht⟩
  exact spellsMember_stringChars e.1 blank_nil blank_nil ht

/-- So is a list. -/
theorem spells_listChars {items : List Tree} {css : List (List Char)}
    (h : List.Forall₂ Spells items css) : Spells (.list items) (listChars css) :=
  .list blank_nil (separated_intersperse h)

theorem Spells.isText {t : Tree} {cs : List Char} (h : Spells t cs) :
    IsText t (octetsOfChars cs) :=
  ⟨[], cs, [], blank_nil, h, blank_nil, by rw [List.append_nil]; rfl⟩

/-- **A total is a numeral** that writes it. -/
theorem exists_numeral_intChars (k : Int64) :
    ∃ n : Numeral, n.chars = intChars k.toInt ∧ n.int64? = some k := by
  rcases int64_cases k with ⟨j, hj, hk⟩ | ⟨j, hj0, hj, hk⟩
  · obtain ⟨ds, hchars, hvalue, hhead⟩ := exists_digits j
    have hmagnitude : (⟨false, ds, none, none, hhead⟩ : Numeral).magnitude = j := hvalue
    refine ⟨⟨false, ds, none, none, hhead⟩, ?_, ?_⟩
    · rw [hk, intChars_natCast, ← hchars]
      exact List.append_nil _
    · rw [Numeral.int64?_integral _ rfl rfl, hmagnitude, if_neg Bool.false_ne_true, if_pos hj,
        ← Int64.ofInt_toInt k, hk]
      rfl
  · obtain ⟨ds, hchars, hvalue, hhead⟩ := exists_digits j
    have hmagnitude : (⟨true, ds, none, none, hhead⟩ : Numeral).magnitude = j := hvalue
    refine ⟨⟨true, ds, none, none, hhead⟩, ?_, ?_⟩
    · rw [hk, intChars_neg_natCast hj0, ← hchars]
      exact congrArg ('-' :: ·) (List.append_nil _)
    · rw [Numeral.int64?_integral _ rfl rfl, hmagnitude, if_pos rfl, if_neg hj0, if_pos hj, ← hk,
        Int64.ofInt_toInt]

/-- **A level is a numeral** in which the double is found that is read, or `null`. -/
theorem exists_held_realChars (x : Binary64) :
    ∃ t, Spells t (realChars x) ∧ t.held? Numeral.double? = some x.reread := by
  by_cases hx : x.isFinite = true
  · cases x with
    | nan => cases hx
    | signed s r =>
      obtain ⟨n, hn, -⟩ := exists_numeral_realChars s (Binary64.lt_infiniteRank hx)
      have hdouble : n.double? = (Binary64.signed s r).reread := by
        rw [Numeral.double?, hn, Binary64.reread, if_pos hx]
      obtain ⟨y, hy⟩ := Option.isSome_iff_exists.1
        ((Binary64.isSome_reread (.signed s r)).trans hx)
      refine ⟨.number n, hn ▸ .number n, ?_⟩
      rw [Tree.held?, hdouble, hy]
      rfl
  · have hnull : realChars x = ['n', 'u', 'l', 'l'] := if_neg hx
    have hnone : x.reread = none := if_neg hx
    rw [hnull, hnone]
    exact ⟨.null, .null, rfl⟩

end Json

open Json

/-! ### One record -/

/-- The key of a value in a record. -/
def Value.field : Value → String
  | .gauge _ => "value"
  | .counter _ => "delta"

/-- A value of the text is read as a value of a metric is. -/
def Value.HeldIn (v : Value) (t : Tree) : Prop :=
  match v with
  | .gauge x => t.held? Numeral.double? = some x.reread
  | .counter n => t.held? Numeral.int64? = some (some n)

/-- **The members of a record**: the name, the word for the kind, and the value under the key for
that kind. -/
def Metric.members (m : Metric) (t : Tree) : List (Option String × Tree) :=
  [(some "id", .text (some m.name)), (some "type", .text (some m.kind.tag)),
    (some m.value.field, t)]

/-- **A record is an object** with these members. -/
theorem exists_spells_recordChars (m : Metric) :
    ∃ t, m.value.HeldIn t ∧ Spells (.object (m.members t)) (recordChars m) := by
  obtain ⟨name, value, named⟩ := m
  have hspells : ∀ {t cs}, Spells t cs → Spells (.object (Metric.members ⟨name, value, named⟩ t))
      (objectChars [("id", stringChars name), ("type", stringChars value.kind.tag),
        (value.field, cs)]) := fun h =>
    spells_objectChars (.cons ⟨rfl, spells_stringChars name⟩ (.cons ⟨rfl, spells_stringChars _⟩
      (.cons ⟨rfl, h⟩ .nil)))
  cases value with
  | gauge x =>
    obtain ⟨t, hspelled, hheld⟩ := exists_held_realChars x
    exact ⟨t, hheld, hspells hspelled⟩
  | counter n =>
    obtain ⟨numeral, hchars, hn⟩ := exists_numeral_intChars n
    refine ⟨.number numeral, ?_, hspells (hchars ▸ .number numeral)⟩
    show (numeral.int64?).map some = some (some n)
    rw [hn]
    rfl

/-- They are the fields that are read. -/
theorem Metric.recordOf?_members {m : Metric} {t : Tree} (h : m.value.HeldIn t) :
    recordOf? (m.members t) = some m.fields := by
  obtain ⟨name, value, named⟩ := m
  cases value with
  | gauge x =>
    show Option.bind (Option.bind ((t.held? Numeral.double?).map _) _) _ = _
    rw [show t.held? Numeral.double? = some x.reread from h]
    rfl
  | counter n =>
    show Option.bind (Option.bind ((t.held? Numeral.int64?).map _) _) _ = _
    rw [show t.held? Numeral.int64? = some (some n) from h]
    rfl

/-- **The words for one metric** are read as what it becomes. -/
theorem decodeRecord_eq (m : Metric) : decodeRecord (encodeRecord m) = m.reread := by
  obtain ⟨t, hheld, hspells⟩ := exists_spells_recordChars m
  have hread := toOption_readAll_readRecord hspells.isText
  rw [Metric.recordOf?_members hheld, ← encodeRecord] at hread
  rw [decodeRecord]
  cases hall : readAll readRecord (encodeRecord m) with
  | error why =>
    rw [hall] at hread
    cases hread
  | ok r =>
    rw [hall] at hread
    rw [Option.some.inj hread]
    exact Record.toMetric_fields m

theorem decodeRecord_encodeRecord {m : Metric} (hm : m.value.ReadsBack) :
    decodeRecord (encodeRecord m) = .ok m := by
  rw [decodeRecord_eq, Metric.reread_of_readsBack hm]

/-! ### Records in a list -/

/-- **The words for metrics are a list** of such objects. -/
theorem exists_isText_encodeRecords (ms : List Metric) :
    ∃ objects : List (List (Option String × Tree)),
      List.Forall₂ (fun m members => ∃ t, m.value.HeldIn t ∧ members = m.members t) ms objects ∧
        IsText (.list (objects.map .object)) (encodeRecords ms) := by
  obtain ⟨objects, hmembers, hspells⟩ : ∃ objects : List (List (Option String × Tree)),
      List.Forall₂ (fun m members => ∃ t, m.value.HeldIn t ∧ members = m.members t) ms objects ∧
        List.Forall₂ Spells (objects.map .object) (ms.map recordChars) := by
    induction ms with
    | nil => exact ⟨[], .nil, .nil⟩
    | cons m ms ih =>
      obtain ⟨t, hheld, hspelled⟩ := exists_spells_recordChars m
      obtain ⟨objects, hmembers, hspells⟩ := ih
      exact ⟨m.members t :: objects, .cons ⟨t, hheld, rfl⟩ hmembers, .cons hspelled hspells⟩
  exact ⟨objects, hmembers, (spells_listChars hspells).isText⟩

/-- **The words for metrics** are read as what each of them becomes; the first one that is refused
is the answer if there is one. -/
theorem decodeRecords_eq (ms : List Metric) :
    decodeRecords (encodeRecords ms) = ms.mapM Metric.reread := by
  obtain ⟨objects, hmembers, htext⟩ := exists_isText_encodeRecords ms
  have hfields : objects.mapM recordOf? = some (ms.map Metric.fields) := by
    clear htext
    induction hmembers with
    | nil => rfl
    | cons h _ ih =>
      obtain ⟨t, hheld, rfl⟩ := h
      rw [mapM_option_cons, Metric.recordOf?_members hheld, ih]
      rfl
  have hread := toOption_readAll_readRecords htext
  rw [hfields] at hread
  rw [decodeRecords]
  cases hall : readAll readRecords (encodeRecords ms) with
  | error why =>
    rw [hall] at hread
    cases hread
  | ok rs =>
    rw [hall] at hread
    rw [Option.some.inj hread]
    show (ms.map Metric.fields).mapM Record.toMetric = _
    rw [List.mapM_map]
    exact congrArg (ms.mapM ·) (funext Record.toMetric_fields)

/-- **The words for metrics are read back as the same metrics.** -/
theorem decodeRecords_encodeRecords {ms : List Metric} (hms : ∀ m ∈ ms, m.value.ReadsBack) :
    decodeRecords (encodeRecords ms) = .ok ms := by
  rw [decodeRecords_eq]
  induction ms with
  | nil => rfl
  | cons m ms ih =>
    rw [List.mapM_cons, Metric.reread_of_readsBack (hms m List.mem_cons_self),
      ih fun n hn => hms n (List.mem_cons_of_mem m hn)]
    rfl

/-! ### There and back -/

/-- A numeral that writes a value. -/
def Json.Numeral.Writes (n : Numeral) : Value → Prop
  | .gauge x => n.double? = some x
  | .counter k => n.int64? = some k

/-- A value that comes back has been written as a number. -/
theorem Value.HeldIn.exists_numeral {v : Value} (hv : v.ReadsBack) {t : Tree} (h : v.HeldIn t) :
    ∃ n : Numeral, n.Writes v ∧ t = .number n := by
  cases v with
  | gauge x =>
    have hheld : t.held? Numeral.double? = some (some x) := by
      rw [← Binary64.ReadsBack.reread_eq hv]
      exact h
    obtain ⟨n, rfl, hn⟩ := Tree.held?_eq_some_some_iff.1 hheld
    exact ⟨n, hn, rfl⟩
  | counter k =>
    obtain ⟨n, rfl, hn⟩ := Tree.held?_eq_some_some_iff.1 h
    exact ⟨n, hn, rfl⟩

/-- **Records go there and back.** Metrics whose levels come back from their own texts are read
back in order, each of them alone and all of them in a list. And whatever text was read as such a
list, the words for the list are read as the same, and in them each record is its name, the word for
its kind and a number under the key for that kind, with nothing else. -/
theorem records_round_trip {ms : List Metric} (hms : ∀ m ∈ ms, m.value.ReadsBack) :
    decodeRecords (encodeRecords ms) = .ok ms ∧
    (∀ m ∈ ms, decodeRecord (encodeRecord m) = .ok m) ∧
    ∀ body, decodeRecords body = .ok ms →
      decodeRecords (encodeRecords ms) = decodeRecords body ∧
      ∃ objects : List (List (Option String × Tree)),
        IsText (.list (objects.map .object)) (encodeRecords ms) ∧
        List.Forall₂ (fun m members => ∃ n : Numeral, n.Writes m.value ∧
          members = m.members (.number n)) ms objects := by
  have hlist := decodeRecords_encodeRecords hms
  refine ⟨hlist, fun m hm => decodeRecord_encodeRecord (hms m hm), fun body hbody => ?_⟩
  obtain ⟨objects, hmembers, htext⟩ := exists_isText_encodeRecords ms
  refine ⟨hlist.trans hbody.symm, objects, htext, ?_⟩
  clear htext hlist hbody
  induction hmembers with
  | nil => exact .nil
  | @cons m members ms objects h _ ih =>
    obtain ⟨t, hheld, rfl⟩ := h
    obtain ⟨n, hn, rfl⟩ := hheld.exists_numeral (hms m List.mem_cons_self)
    exact .cons ⟨n, hn, rfl⟩ (ih fun k hk => hms k (List.mem_cons_of_mem m hk))

/-- Both ends of the range, a level that takes seventeen digits, and names that cannot be written
as they are. -/
def oddMetrics : List Metric :=
  [⟨"\"\\/\n\x00", .counter Int64.minValue, by decide⟩, ⟨"😀", .counter Int64.maxValue, by decide⟩,
    ⟨"\x1f\x7f", .gauge (.ofBits 0x3FD3333333333334), by decide⟩]

/-- They go there and back. -/
theorem records_round_trip_odd :
    decodeRecords (encodeRecords oddMetrics) = .ok oddMetrics ∧
    (∀ m ∈ oddMetrics, decodeRecord (encodeRecord m) = .ok m) ∧
    ∃ objects : List (List (Option String × Tree)),
      IsText (.list (objects.map .object)) (encodeRecords oddMetrics) ∧
      List.Forall₂ (fun m members => ∃ n : Numeral, n.Writes m.value ∧
        members = m.members (.number n)) oddMetrics objects := by
  have hback : ∀ m ∈ oddMetrics, m.value.ReadsBack := by decide +kernel
  obtain ⟨hlist, hone, htext⟩ := records_round_trip hback
  exact ⟨hlist, hone, (htext _ hlist).2⟩

end Telemetry
