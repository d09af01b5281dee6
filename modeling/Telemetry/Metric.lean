import Telemetry.Failure
import Telemetry.Number.Reading
import Telemetry.Text.Blank
import Telemetry.Text.Quoted

/-!
# Metrics

A metric is a named value, and the value decides the kind: a **gauge** is a
double of which the last one written counts, a **counter** a 64-bit whole number
whose updates add up. So a metric cannot carry a kind that disagrees with its
value, and it always has a name.

* `Value.coerce`: the same value under the other kind;
* `Metric.make`: name and value checked and brought to a kind;
* `Metric.parse`: the plain-text form, kind before number before name;
* `addClamped`: how counters add up, staying at the ends of their range.
-/

namespace Telemetry

/-! ### Kinds -/

/-- The kind of a metric. -/
inductive Kind where
  /-- The last value written counts. -/
  | gauge
  /-- Values add up. -/
  | counter
deriving DecidableEq, Repr

namespace Kind

/-- All kinds, in the order in which stores list them. -/
def all : List Kind := [.gauge, .counter]

/-- The word for a kind. -/
def tag : Kind → String
  | .gauge => "gauge"
  | .counter => "counter"

/-- The kind that a word stands for; no other spelling is accepted. -/
def ofTag (t : String) : Except Failure Kind :=
  if t = "gauge" then .ok .gauge
  else if t = "counter" then .ok .counter
  else .error (.unknownKind t)

@[simp] theorem ofTag_tag (k : Kind) : ofTag k.tag = .ok k := by
  cases k <;> rfl

/-- A word is accepted exactly when it is the word for some kind. -/
theorem ofTag_eq_ok_iff {t : String} {k : Kind} : ofTag t = .ok k ↔ t = k.tag := by
  constructor
  · intro h
    unfold ofTag at h
    split at h
    · cases h
      assumption
    · split at h
      · cases h
        assumption
      · cases h
  · rintro rfl
    exact ofTag_tag k

/-- Different kinds have different words. -/
theorem tag_injective {j k : Kind} (h : j.tag = k.tag) : j = k := by
  have := ofTag_tag j
  rw [h, ofTag_tag] at this
  cases this
  rfl

end Kind

/-! ### Values -/

/-- The value of a metric. -/
inductive Value where
  /-- The level of a gauge. -/
  | gauge (level : Binary64)
  /-- What a counter counts on by. -/
  | counter (delta : Int64)
deriving DecidableEq, Repr

/-- The sum of two counts, cut at the ends of the range. -/
def addClamped (a b : Int64) : Int64 := Int64.ofIntClamp (a.toInt + b.toInt)

namespace Value

/-- The kind of a value. -/
def kind : Value → Kind
  | .gauge _ => .gauge
  | .counter _ => .counter

/-- The value read as a level; a count widens. -/
def level : Value → Binary64
  | .gauge x => x
  | .counter n => .ofInt64 n

/-- The value read as a count; a level is cut toward zero and at the ends of the
range. -/
def count : Value → Int64
  | .gauge x => x.toInt64
  | .counter n => n

/-- The value under a kind. -/
def coerce (v : Value) : Kind → Value
  | .gauge => .gauge v.level
  | .counter => .counter v.count

/-- The text of a value. -/
def text : Value → String
  | .gauge x => FloatStyle.plain.text x
  | .counter n => toString n.toInt

/-- Equality of values as numbers. -/
def numEq : Value → Value → Bool
  | .gauge x, .gauge y => x.numEq y
  | .counter m, .counter n => m == n
  | _, _ => false

@[simp] theorem kind_coerce (v : Value) (k : Kind) : (v.coerce k).kind = k := by
  cases k <;> rfl

@[simp] theorem coerce_kind (v : Value) : v.coerce v.kind = v := by
  cases v <;> rfl

end Value

/-! ### Metrics -/

/-- A named value. -/
@[ext] structure Metric where
  /-- The name, any text but the empty one. -/
  name : String
  /-- The value. -/
  value : Value
  /-- There is a name. -/
  named : name ≠ ""
deriving DecidableEq

namespace Metric

/-- The kind of a metric is that of its value. -/
def kind (m : Metric) : Kind := m.value.kind

/-- A metric of a value as it is. -/
def ofValue (name : String) (v : Value) : Except Failure Metric :=
  if h : name = "" then .error .emptyName else .ok ⟨name, v, h⟩

/-- A metric of a value brought to a kind. -/
def make (name : String) (kind : Kind) (v : Value) : Except Failure Metric :=
  ofValue name (v.coerce kind)

/-- The wording of a raw text that is no number. -/
def unreadable (raw why : String) : Failure := .badValue (quote raw ++ ": " ++ why)

/-- The value that a raw text stands for under a kind, white space around it
being ignored. -/
def parseValue (kind : Kind) (raw : String) : Except Failure Value :=
  match kind with
  | .gauge => match readFloat (trimBlank raw.toList) with
    | .ok x => .ok (.gauge x)
    | .error e => .error (unreadable raw e.message)
  | .counter => match readInt64 (trimBlank raw.toList) with
    | .ok n => .ok (.counter n)
    | .error e => .error (unreadable raw e.message)

/-- The metric that a name, the word for a kind and a raw text stand for. The
kind is looked at first, then the number, then the name. -/
def parse (name kind raw : String) : Except Failure Metric := do
  let k ← Kind.ofTag kind
  let v ← parseValue k raw
  make name k v

/-- The text of a metric. -/
def text (m : Metric) : String := m.kind.tag ++ "/" ++ m.name ++ "=" ++ m.value.text

/-- Equality of metrics, their values compared as numbers. -/
def numEq (m n : Metric) : Bool := m.name == n.name && m.value.numEq n.value

/-- What is made has the name and the value it is made of, and every metric is made of
its own. -/
theorem ofValue_eq_ok_iff {name : String} {v : Value} {m : Metric} :
    ofValue name v = .ok m ↔ m.name = name ∧ m.value = v := by
  unfold ofValue
  split
  · rename_i h
    constructor
    · intro hc
      cases hc
    · rintro ⟨hn, -⟩
      exact absurd (hn.trans h) m.named
  · constructor
    · intro hc
      cases hc
      exact ⟨rfl, rfl⟩
    · rintro ⟨rfl, rfl⟩
      rfl

/-- A metric is built from its own name and value. -/
@[simp] theorem ofValue_name_value (m : Metric) : ofValue m.name m.value = .ok m :=
  ofValue_eq_ok_iff.2 ⟨rfl, rfl⟩

/-- A value that is of the kind asked for is taken as it is. -/
theorem make_of_kind {name : String} {k : Kind} {v : Value} (h : v.kind = k) :
    make name k v = ofValue name v := by
  subst h
  rw [make, Value.coerce_kind]

/-- The kind asked for is the kind of the metric made. -/
theorem kind_of_make {name : String} {k : Kind} {v : Value} {m : Metric}
    (h : make name k v = .ok m) : m.kind = k := by
  obtain ⟨-, hv⟩ := ofValue_eq_ok_iff.1 h
  rw [kind, hv, Value.kind_coerce]

end Metric

/-- Are two lists of the same length, and each metric of one equal to that at its
place in the other, their values compared as numbers? -/
def sameMetrics (ms ns : List Metric) : Bool :=
  ms.length == ns.length && (ms.zip ns).all fun p => p.1.numEq p.2

end Telemetry
