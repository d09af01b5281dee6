import Mathlib
import Telemetry.Proofs.FiniteMap
import Telemetry.Proofs.Paths
import Telemetry.Proofs.Snapshot

/-!
# What a file restores

A store that is opened on a file takes all of the metrics in it or none. They are put in their
places one after the other, each in the place of the one before it of its kind and name; so of
several records the last one counts, a count in a record is a total and not added to another one,
and a file that cannot be read up to its end leaves the store empty, however much of it can be read.

Opening makes the directory of the file if it is missing, and nothing else: every file stands where
it stood and holds what it held (`Disk.AddsDirectories`).

* `Disk.AddsDirectories`, `Disk.AddsDirectories.read`: what the making of directories leaves alone;
* `Memory.lastOf`, `Memory.value?_ofMetrics`: of several metrics the last one counts;
* `FileStore.Restores`, `FileStore.restores_openAt`: opening.
-/

namespace Telemetry

namespace Disk

/-! ### Directories that are added -/

/-- **Nothing but directories has been made**: wherever something stood it stands still, and where
nothing stood there is nothing or a directory. -/
structure AddsDirectories (d e : Disk) : Prop where
  /-- The program runs in the same directory. -/
  home : e.home = d.home
  /-- What stands where. -/
  stands : ∀ p, e.at? p = d.at? p ∨ d.at? p = none ∧ e.at? p = some .directory

theorem AddsDirectories.refl (d : Disk) : d.AddsDirectories d := ⟨rfl, fun _ => .inl rfl⟩

theorem AddsDirectories.trans {d e f : Disk} (h : d.AddsDirectories e) (h' : e.AddsDirectories f) :
    d.AddsDirectories f := by
  refine ⟨h'.home.trans h.home, fun p => ?_⟩
  rcases h.stands p with hde | ⟨hd, he⟩ <;> rcases h'.stands p with hef | ⟨he', hf⟩
  · exact .inl (hef.trans hde)
  · exact .inr ⟨hde ▸ he', hf⟩
  · exact .inr ⟨hd, hef.trans he⟩
  · rw [he] at he'
    cases he'

/-- What stood somewhere stands there still. -/
theorem AddsDirectories.at?_eq_some {d e : Disk} (h : d.AddsDirectories e) {p : Place} {n : Node}
    (hp : d.at? p = some n) : e.at? p = some n := by
  rcases h.stands p with he | ⟨hnone, -⟩
  · exact he.trans hp
  · rw [hp] at hnone
    cases hnone

theorem AddsDirectories.keeps {d e : Disk} (h : d.AddsDirectories e) : d.Keeps e :=
  ⟨h.home, fun _ hp => h.at?_eq_some hp⟩

/-- **A file that could be read is read as before.** -/
theorem AddsDirectories.read {d e : Disk} (h : d.AddsDirectories e) {path : String}
    {content : Octets} (hd : d.read path = .ok content) : e.read path = .ok content := by
  obtain ⟨p, hp, hd⟩ := bind_eq_ok hd
  unfold Disk.read
  rw [resolve_of_keeps h.keeps hp]
  -- something stands at the place, or there would be nothing to read
  cases hat : d.at? p with
  | none =>
    rw [hat] at hd
    cases hd
  | some node =>
    rw [hat] at hd
    simp only [bind, Except.bind, h.at?_eq_some hat]
    exact hd

/-- A directory made where nothing stands. -/
theorem addsDirectories_set {d : Disk} {p : Place} (h : d.at? p = none) :
    d.AddsDirectories (d.set p .directory) := by
  have hroot : p ≠ [] := by
    rintro rfl
    cases h
  refine ⟨rfl, fun q => ?_⟩
  by_cases hq : q = p
  · subst hq
    exact .inr ⟨h, at?_set_self hroot⟩
  · exact .inl (at?_set_ne hq)

/-- Directories made on the way along some names. -/
theorem addsDirectories_makeAll (p : Place) (names : List String) (d : Disk) :
    d.AddsDirectories (makeAll p names d).2 := by
  induction names generalizing p d with
  | nil => exact AddsDirectories.refl d
  | cons name names ih =>
    unfold makeAll
    split
    · exact AddsDirectories.refl d
    · rename_i q _
      split
      · rename_i hnone
        split
        · exact AddsDirectories.refl d
        · exact (addsDirectories_set hnone).trans (ih q _)
      · exact ih q d
      · exact AddsDirectories.refl d

theorem addsDirectories_makeDirectories (d : Disk) (path : String) :
    d.AddsDirectories (d.makeDirectories path).2 := by
  unfold makeDirectories
  split
  · exact AddsDirectories.refl d
  · split
    · exact AddsDirectories.refl d
    · exact addsDirectories_makeAll ..

end Disk

namespace Memory

/-! ### The last one counts -/

/-- The value of the last metric of a kind and a name. -/
def lastOf (ms : List Metric) (kind : Kind) (name : String) : Option Value :=
  (ms.filter fun m => m.kind = kind ∧ m.name = name).getLast?.map Metric.value

/-- With one more metric it is that one, if it is of the kind and the name. -/
theorem lastOf_concat (ms : List Metric) (m : Metric) (kind : Kind) (name : String) :
    lastOf (ms ++ [m]) kind name =
      if m.kind = kind ∧ m.name = name then some m.value else lastOf ms kind name := by
  by_cases h : m.kind = kind ∧ m.name = name <;> simp [lastOf, h]

/-- A metric that is put in its place is found there, and all others are where they were. -/
theorem value?_put (s : Memory) (m : Metric) (kind : Kind) (name : String) :
    (s.put m).value? kind name =
      if m.kind = kind ∧ m.name = name then some m.value else s.value? kind name := by
  obtain ⟨n, v, hn⟩ := m
  cases v <;> cases kind <;>
    simp [put, value?, Metric.kind, Value.kind, NameMap.lookup_insert, @eq_comm _ n,
      apply_ite (Option.map _)]

/-- **Of several metrics of one kind and name the last one counts**, and nothing else is there. -/
theorem value?_ofMetrics (ms : List Metric) (kind : Kind) (name : String) :
    (ofMetrics ms).value? kind name = lastOf ms kind name := by
  rw [ofMetrics_eq_foldl]
  induction ms using List.reverseRecOn with
  | nil => cases kind <;> rfl
  | append_singleton ms m ih =>
    rw [List.foldl_append, lastOf_concat, ← ih]
    exact value?_put ..

end Memory

namespace FileStore

/-! ### Opening -/

/-- The making of the directory of a file makes nothing else. -/
theorem addsDirectories_makeParent (path : String) (d : Disk) :
    d.AddsDirectories (makeParent path d).2 := by
  unfold makeParent
  split
  · exact Disk.AddsDirectories.refl d
  · exact Disk.AddsDirectories.refl d
  · rename_i parent _ _
    have hmade := Disk.addsDirectories_makeDirectories d parent
    split <;> rename_i hresult <;> rwa [hresult] at hmade

/-- **What a store holds that was opened on a disk**, which is another one then. -/
structure Restores (settings : FileSettings) (d e : Disk) (f : FileStore) : Prop where
  /-- Nothing was done to the disk but that directories were made, -/
  disk : d.AddsDirectories e
  /-- and whatever a file held it holds. -/
  unchanged : ∀ path content, d.read path = .ok content → e.read path = .ok content
  /-- Of a file that can be read it holds the last metric of each kind and name, a counter being a
  total, and no other ones. -/
  accepted : settings.restore = true → ∀ content ms, e.read settings.path = .ok content →
    decodeRecords content = .ok ms →
      ∀ kind name, f.memory.value? kind name = Memory.lastOf ms kind name
  /-- Of a file that cannot be read it holds nothing, whatever is wrong with it, -/
  rejected : settings.restore = true → ∀ content failure, e.read settings.path = .ok content →
    decodeRecords content = .error failure → f.memory = .empty
  /-- nor does it where there is no file, -/
  missing : settings.restore = true → ∀ fault, e.read settings.path = .error fault →
    f.memory = .empty
  /-- nor if it was to start without. -/
  ignored : settings.restore = false → f.memory = .empty
  /-- A count goes on top of the total that was restored and touches nothing else, whether or not
  the disk takes the snapshot behind it. -/
  counted : ∀ (name : String) (delta : Int64) (hname : name ≠ "") (d' : Disk),
    let counted := (f.update ⟨name, .counter delta, hname⟩ d').2.1.memory
    counted.value? .counter name = some (.counter (addClamped (f.memory.total name) delta)) ∧
      ∀ kind other, (kind, other) ≠ (.counter, name) →
        counted.value? kind other = f.memory.value? kind other

/-- A count applied, as it is found then. -/
theorem counted_update (f : FileStore) (name : String) (delta : Int64) (hname : name ≠ "")
    (d : Disk) :
    let counted := (f.update ⟨name, .counter delta, hname⟩ d).2.1.memory
    counted.value? .counter name = some (.counter (addClamped (f.memory.total name) delta)) ∧
      ∀ kind other, (kind, other) ≠ (.counter, name) →
        counted.value? kind other = f.memory.value? kind other := by
  simp only [update, batchUpdate_memory, Memory.value?_applyAll]
  constructor
  · simp [Memory.valueBehind, deltasOf, deltaOf?]
  · intro kind other hother
    refine Memory.valueBehind_of_not_writes ?_
    rintro ⟨m, hm, rfl, rfl⟩
    obtain rfl := List.mem_singleton.1 hm
    exact hother rfl

/-- **A file is restored as a whole or not at all.** Where the directory of the file can be made, a
store can be opened, whatever the file holds. -/
theorem restores_openAt (settings : FileSettings) (time : Nat) (d : Disk)
    (h : (makeParent settings.path d).1 = .ok ()) :
    ∃ f, (openAt settings time d).1 = .ok f ∧
      Restores settings d (openAt settings time d).2 f := by
  have hadds := addsDirectories_makeParent settings.path d
  obtain ⟨⟨⟩, e, hparent⟩ : ∃ u e, makeParent settings.path d = (.ok u, e) :=
    ⟨(), (makeParent settings.path d).2, Prod.ext h rfl⟩
  rw [hparent] at hadds
  have hopen : openAt settings time d = (.ok ⟨settings.path,
      if settings.restore then restoredAt settings.path e else .empty, settings.interval, time,
      settings.interval ≠ 0⟩, e) := by
    rw [openAt, hparent]
  rw [hopen]
  refine ⟨_, rfl, hadds, fun _ _ => hadds.read, ?_, ?_, ?_, ?_, counted_update _⟩
  · intro hrestore content ms hread hdecode kind name
    simp only [hrestore, if_true, restoredAt, hread, restored, hdecode]
    exact Memory.value?_ofMetrics ms kind name
  · intro hrestore content failure hread hdecode
    simp only [hrestore, if_true, restoredAt, hread, restored, hdecode]
  · intro hrestore fault hread
    simp only [hrestore, if_true, restoredAt, hread]
  · intro hrestore
    simp only [hrestore, Bool.false_eq_true, if_false]

/-- Metrics of one name, of either kind and more than once. -/
def repeatedLaps : List Metric :=
  [⟨"laps", .counter 9223372036854775807, by decide⟩, ⟨"laps", .gauge (.ofFraction false 3 2),
    by decide⟩, ⟨"laps", .counter 7, by decide⟩]

/-- A disk with a file of them. -/
def repeatedDisk : Disk :=
  (Disk.blank ["srv"]).set ["srv", "m.json"] (.file (encodeRecords repeatedLaps))

theorem restores_repeatedLaps :
    (makeParent "/srv/m.json" repeatedDisk).1 = .ok () ∧
      ∃ f, (openAt ⟨"/srv/m.json", 0, true⟩ 3 repeatedDisk).1 = .ok f ∧
        Restores ⟨"/srv/m.json", 0, true⟩ repeatedDisk
          (openAt ⟨"/srv/m.json", 0, true⟩ 3 repeatedDisk).2 f ∧
        f.memory.value? .counter "laps" = some (.counter 7) := by
  have hparent : (makeParent "/srv/m.json" repeatedDisk).1 = .ok () := by decide +kernel
  have hread : repeatedDisk.read "/srv/m.json" = .ok (encodeRecords repeatedLaps) := by
    decide +kernel
  have hdecode : decodeRecords (encodeRecords repeatedLaps) = .ok repeatedLaps := by decide +kernel
  obtain ⟨f, hopen, hrestores⟩ := restores_openAt ⟨"/srv/m.json", 0, true⟩ 3 repeatedDisk hparent
  refine ⟨hparent, f, hopen, hrestores, ?_⟩
  rw [hrestores.accepted rfl _ _ (hrestores.unchanged _ _ hread) hdecode]
  decide

end FileStore

end Telemetry
