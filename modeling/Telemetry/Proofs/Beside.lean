import Mathlib
import Telemetry.Proofs.Paths

/-!
# A file and the one beside it

A snapshot is written beside the file meant and then put in its place. The name of the file beside
is longer than the name of the one meant and both lie in one directory, so whatever the path is,
the two are different places (`FileStore.besidePath_ne`). Hence writing beside a file leaves that
file as it is, also when the writing stops half way, and only `FileStore.replace` changes it, to
what was written beside it.

Neither makes a directory or takes one away (`Disk.Alike`), and opening a store makes directories
and nothing else. So the path leads to one place all along, and what stands there as a file when
the store is open stood there before (`FileStore.fileAt_makeParent`).

* `Disk.Alike`, `Disk.resolve_iff`: the same directories, the same places;
* `Disk.fileAt`, `Disk.Contains`: the files of a disk;
* `FileStore.at?_writeBeside`, `FileStore.contains_replace`: the two halves of a snapshot.
-/

namespace Telemetry

/-! ### Paths that end differently -/

/-- What is behind a list goes to the end of its last part, if it is not cut itself. -/
theorem exists_cutAt_append {α : Type} (isCut : α → Bool) (xs : List α) {ys : List α}
    (hys : ∀ a ∈ ys, isCut a = false) :
    ∃ front last, cutAt isCut xs = front ++ [last] ∧
      cutAt isCut (xs ++ ys) = front ++ [last ++ ys] := by
  induction xs with
  | nil =>
    refine ⟨[], [], rfl, ?_⟩
    induction ys with
    | nil => rfl
    | cons y ys ih =>
      have hrest := ih fun a ha => hys a (List.mem_cons_of_mem y ha)
      simp only [List.nil_append] at hrest ⊢
      rw [cutAt, hys y List.mem_cons_self, hrest]
      rfl
  | cons x xs ih =>
    obtain ⟨front, last, hxs, hall⟩ := ih
    rw [List.cons_append, cutAt, cutAt, hxs, hall]
    split
    · exact ⟨[] :: front, last, rfl, rfl⟩
    · cases front with
      | nil => exact ⟨[], x :: last, rfl, rfl⟩
      | cons part front => exact ⟨(x :: part) :: front, last, rfl, rfl⟩

namespace Disk

/-! ### The same directories -/

/-- Two disks have the same directories. -/
def Alike (d e : Disk) : Prop := d.Keeps e ∧ e.Keeps d

theorem Alike.refl (d : Disk) : d.Alike d := ⟨.refl d, .refl d⟩

theorem Alike.trans {d e f : Disk} (h : d.Alike e) (h' : e.Alike f) : d.Alike f :=
  ⟨h.1.trans h'.1, h'.2.trans h.2⟩

/-- Then every path leads to the same place on both, or to none. -/
theorem resolve_iff {d e : Disk} (h : d.Alike e) {path : String} {p : Place} :
    e.resolve path = .ok p ↔ d.resolve path = .ok p :=
  ⟨resolve_of_keeps h.2, resolve_of_keeps h.1⟩

/-- A file that is set where no directory stands. -/
theorem alike_set {d : Disk} {p : Place} {n : Node} (hn : n ≠ .directory)
    (h : d.at? p ≠ some .directory) : d.Alike (d.set p n) := by
  refine ⟨keeps_set n h, rfl, fun q hq => ?_⟩
  rwa [at?_set_ne] at hq
  rintro rfl
  rw [at?_set_self (ne_nil_of_at? h)] at hq
  exact hn (Option.some.inj hq)

/-- Nothing stands at a place that was cleared. -/
theorem at?_clear_self {d : Disk} {p : Place} (h : p ≠ []) : (d.clear p).at? p = none := by
  rw [at?, if_neg h, clear, List.lookup_eq_none_iff]
  intro entry hentry
  rw [bne_comm]
  exact (List.mem_filter.1 hentry).2

/-- A file that is moved to where no directory stands. -/
theorem alike_move {d : Disk} {p q : Place} {n : Node} (hn : n ≠ .directory)
    (hp : d.at? p ≠ some .directory) (hq : d.at? q ≠ some .directory) :
    d.Alike ((d.clear p).set q n) := by
  refine ⟨keeps_move n hp hq, rfl, fun r hr => ?_⟩
  have hrq : r ≠ q := by
    rintro rfl
    rw [at?_set_self (ne_nil_of_at? hq)] at hr
    exact hn (Option.some.inj hr)
  rw [at?_set_ne hrq] at hr
  have hrp : r ≠ p := by
    rintro rfl
    rw [at?_clear_self (ne_nil_of_at? hp)] at hr
    cases hr
  rwa [at?_clear_ne hrp] at hr

/-! ### Files -/

/-- The file at a place, if there is one. -/
def fileAt (d : Disk) (p : Place) : Option Node :=
  match d.at? p with
  | some .directory => none
  | node => node

theorem fileAt_of_at? {d e : Disk} {p : Place} (h : d.at? p = e.at? p) : d.fileAt p = e.fileAt p := by
  rw [fileAt, h, fileAt]

theorem fileAt_eq_some {d : Disk} {p : Place} {n : Node} (hn : n ≠ .directory)
    (h : d.at? p = some n) : d.fileAt p = some n := by
  rw [fileAt, h]
  cases n with
  | directory => exact absurd rfl hn
  | file | database => rfl

/-- A path leads to a file of some contents. -/
def Contains (d : Disk) (path : String) (content : Octets) : Prop :=
  ∃ p, d.resolve path = .ok p ∧ d.at? p = some (.file content)

/-- So it reads that. -/
theorem Contains.read {d : Disk} {path : String} {content : Octets} (h : d.Contains path content)
    (hasks : asksDirectory path = false) : d.read path = .ok content := by
  obtain ⟨p, hp, hfile⟩ := h
  exact read_file hp hfile hasks

theorem Contains.fileAt {d : Disk} {path : String} {content : Octets} (h : d.Contains path content)
    {p : Place} (hp : d.resolve path = .ok p) : d.fileAt p = some (.file content) := by
  obtain ⟨q, hq, hfile⟩ := h
  obtain rfl : q = p := Except.ok.inj (hq.symm.trans hp)
  exact fileAt_eq_some nofun hfile

/-- Directories are made where nothing stands, so no file comes or goes. -/
theorem fileAt_makeAll (p : Place) (names : List String) (d : Disk) (q : Place) :
    (makeAll p names d).2.fileAt q = d.fileAt q := by
  induction names generalizing p d with
  | nil => rfl
  | cons name names ih =>
    unfold makeAll
    split
    · rfl
    · rename_i r _
      split
      · rename_i hnone
        split
        · rfl
        · rw [ih]
          by_cases hqr : q = r
          · -- a directory is made here, and a directory is no file
            subst hqr
            have hq : q ≠ [] := ne_nil_of_at? (by rw [hnone]; exact (Option.some_ne_none _).symm)
            rw [fileAt, fileAt, at?_set_self hq, hnone]
          · exact fileAt_of_at? (at?_set_ne hqr)
      · exact ih r d
      · rfl

end Disk

namespace FileStore

open Disk

/-- **Opening a store touches no file.** -/
theorem fileAt_makeParent (path : String) (d : Disk) (q : Place) :
    (makeParent path d).2.fileAt q = d.fileAt q := by
  have hmade (parent : String) : (d.makeDirectories parent).2.fileAt q = d.fileAt q := by
    unfold makeDirectories
    split
    · rfl
    · split
      · rfl
      · exact fileAt_makeAll _ _ d q
  unfold makeParent
  split
  · rfl
  · rfl
  · rename_i parent _ _
    have := hmade parent
    split <;> simp_all

/-! ### The place beside a file -/

/-- A name leads down in the directory, but for the two short ones that do not. -/
theorem enter_eq_ok {d : Disk} {p q : Place} {name : String} (h : d.enter p name = .ok q) :
    q = p ++ [name] ∨ name.length ≤ 2 ∧ q.length ≤ p.length := by
  unfold enter at h
  split at h
  · cases h
  · split_ifs at h with hself hup
    · subst hself
      exact .inr ⟨by decide, Except.ok.inj h ▸ le_rfl⟩
    · subst hup
      refine .inr ⟨by decide, Except.ok.inj h ▸ ?_⟩
      rw [List.length_dropLast]
      exact Nat.sub_le ..
    · exact .inl (Except.ok.inj h).symm
  · cases h

/-- The names in a path are followed from its start. -/
theorem follow_of_resolve {d : Disk} {path : String} {p : Place} (h : d.resolve path = .ok p) :
    path.toList ≠ [] ∧
      (pathNames path).foldlM d.enter (if path.toList.head? = some '/' then [] else d.home) =
        .ok p := by
  unfold resolve at h
  by_cases hnull : path.toList.contains '\x00' = true
  · rw [if_pos hnull] at h
    cases h
  by_cases hempty : path.isEmpty = true
  · rw [if_neg hnull, if_pos hempty] at h
    cases h
  by_cases hlong : 4096 ≤ path.utf8ByteSize
  · rw [if_neg hnull, if_neg hempty, if_pos hlong] at h
    cases h
  rw [if_neg hnull, if_neg hempty, if_neg hlong] at h
  exact ⟨fun hc => hempty (by simpa using hc), h⟩

/-- The names in the path beside are those in the path, but for the last one of them. -/
theorem pathNames_besidePath (path : String) :
    ∃ front last, pathNames (besidePath path) = front ++ [String.ofList (last ++ ".tmp".toList)] ∧
      (pathNames path = front ∨ pathNames path = front ++ [String.ofList last]) := by
  have htmp : ∀ c ∈ ".tmp".toList, (c == '/') = false := by simp
  obtain ⟨front, last, hcut, hbeside⟩ := exists_cutAt_append (· == '/') path.toList htmp
  refine ⟨(front.filter fun part => !part.isEmpty).map String.ofList, last, ?_, ?_⟩
  · rw [pathNames, besidePath, String.toList_append, hbeside]
    simp
  · rw [pathNames, hcut]
    cases last with
    | nil => exact .inl (by simp)
    | cons c last => exact .inr (by simp)

/-- **The file beside another one is not that one**, wherever the path leads. -/
theorem besidePath_ne {d : Disk} {path : String} {p q : Place}
    (hp : d.resolve (besidePath path) = .ok p) (hq : d.resolve path = .ok q) : q ≠ p := by
  obtain ⟨-, hp⟩ := follow_of_resolve hp
  obtain ⟨hpath, hq⟩ := follow_of_resolve hq
  have hhead : (besidePath path).toList.head? = path.toList.head? := by
    rw [besidePath, String.toList_append, List.head?_append_of_ne_nil _ hpath]
  obtain ⟨front, last, hbeside, hnames⟩ := pathNames_besidePath path
  rw [hhead, hbeside, List.foldlM_append] at hp
  obtain ⟨home, hfront, hp⟩ := bind_eq_ok hp
  have hp : d.enter home (String.ofList (last ++ ".tmp".toList)) = .ok p := by simpa using hp
  -- the last name is too long for one that does not lead down
  have hlong : 2 < (String.ofList (last ++ ".tmp".toList)).length := by
    have htmp : ".tmp".length = 4 := by decide
    simp only [String.length_ofList, List.length_append, String.length_toList, htmp]
    omega
  obtain rfl | ⟨hshort, -⟩ := enter_eq_ok hp
  swap
  · omega
  rcases hnames with hnames | hnames
  · -- the path has no last name, so it leads to the directory that the other file is in
    rw [hnames] at hq
    obtain rfl : home = q := Except.ok.inj (hfront.symm.trans hq)
    simp
  · rw [hnames, List.foldlM_append] at hq
    obtain ⟨home', hfront', hq⟩ := bind_eq_ok hq
    obtain rfl : home = home' := Except.ok.inj (hfront.symm.trans hfront')
    have hq : d.enter home (String.ofList last) = .ok q := by simpa using hq
    rcases enter_eq_ok hq with rfl | ⟨-, hlength⟩
    · -- two names in one directory, one longer than the other
      intro heq
      have hname := String.ofList_injective (List.singleton_inj.1 (List.append_cancel_left heq))
      simp at hname
    · rintro rfl
      simp at hlength

/-! ### The two halves of a snapshot -/

variable {path : String} {content : Octets} {d e : Disk}

/-- **Writing beside a file** keeps the directories, -/
theorem alike_writeBeside (h : writeBeside path content d = .ok e) : d.Alike e := by
  obtain ⟨p, -, hdir, rfl⟩ := write_eq_ok h
  exact alike_set nofun hdir

/-- and the file, -/
theorem at?_writeBeside (h : writeBeside path content d = .ok e) {q : Place}
    (hq : d.resolve path = .ok q) : e.at? q = d.at? q := by
  obtain ⟨p, hp, -, rfl⟩ := write_eq_ok h
  exact at?_set_ne (besidePath_ne hp hq)

/-- and what was written is there. -/
theorem contains_writeBeside (h : writeBeside path content d = .ok e) :
    e.Contains (besidePath path) content := by
  have halike := alike_writeBeside h
  obtain ⟨p, hp, hdir, rfl⟩ := write_eq_ok h
  exact ⟨p, (resolve_iff halike).2 hp, at?_set_self (ne_nil_of_at? hdir)⟩

/-- **What is beside a file and takes its place** keeps the directories too, -/
theorem alike_replace (h : replace path d = .ok e) : d.Alike e := by
  obtain ⟨p, q, node, hp, hq, hnode, hfile, hother, -, rfl⟩ := rename_eq_ok h
  exact alike_move hfile (fun hc => hfile (Option.some.inj (hnode.symm.trans hc))) hother

/-- and the file is then what was beside it. -/
theorem contains_replace (h : replace path d = .ok e) (hd : d.Contains (besidePath path) content) :
    asksDirectory path = false ∧ e.Contains path content := by
  have halike := alike_replace h
  obtain ⟨p, q, node, hp, hq, hnode, hfile, hother, hasks, rfl⟩ := rename_eq_ok h
  obtain ⟨p', hp', hcontent⟩ := hd
  obtain rfl : p = p' := Except.ok.inj (hp.symm.trans hp')
  obtain rfl : node = .file content := Option.some.inj (hnode.symm.trans hcontent)
  exact ⟨hasks, q, (resolve_iff halike).2 hq, at?_set_self (ne_nil_of_at? hother)⟩

end FileStore

end Telemetry
