import Mathlib
import Telemetry.Store.FileStore
import Telemetry.Proofs.Results

/-!
# What a snapshot leaves on the disk

A path is followed from directory to directory, so where it leads depends on the directories
alone. Writing a file and renaming one touch no directory, hence they leave every path that
leads somewhere leading there (`Disk.Keeps`); and directories that have been made are all there
when they are made again.

* `Disk.resolve_of_keeps`: paths lead where they led;
* `Disk.write_eq_ok`, `Disk.rename_eq_ok`: what has happened when the disk does not refuse;
* `Disk.makeAll_again`: making directories a second time changes nothing;
* `FileStore.read_of_sync`: behind a snapshot, the file holds the words for the metrics.
-/

namespace Telemetry

namespace Disk

/-! ### Directories that stay -/

/-- Every directory of the one disk is one of the other, and the program runs in the same. -/
structure Keeps (d e : Disk) : Prop where
  /-- The program runs in the same directory. -/
  home : e.home = d.home
  /-- Directories are still there. -/
  directory : ∀ p, d.at? p = some .directory → e.at? p = some .directory

theorem Keeps.refl (d : Disk) : d.Keeps d := ⟨rfl, fun _ h => h⟩

theorem Keeps.trans {d e f : Disk} (h : d.Keeps e) (h' : e.Keeps f) : d.Keeps f :=
  ⟨h'.home.trans h.home, fun p hp => h'.directory p (h.directory p hp)⟩

/-- A place that was entered from a directory is entered again. -/
theorem enter_of_keeps {d e : Disk} (h : d.Keeps e) {p q : Place} {name : String}
    (hq : d.enter p name = .ok q) : e.enter p name = .ok q := by
  unfold enter at hq ⊢
  split at hq
  · cases hq
  · rename_i hdir
    rw [h.directory p hdir]
    exact hq
  · cases hq

/-- **A path leads where it led.** -/
theorem resolve_of_keeps {d e : Disk} (h : d.Keeps e) {path : String} {p : Place}
    (hp : d.resolve path = .ok p) : e.resolve path = .ok p := by
  have hall : ∀ (names : List String) (start : Place),
      names.foldlM d.enter start = .ok p → names.foldlM e.enter start = .ok p := by
    intro names
    induction names with
    | nil => exact fun start hs => hs
    | cons name names ih =>
      intro start hs
      rw [List.foldlM_cons] at hs ⊢
      obtain ⟨q, hq, hrest⟩ := bind_eq_ok hs
      rw [enter_of_keeps h hq]
      exact ih q hrest
  unfold resolve at hp ⊢
  split_ifs at hp ⊢
  · exact hall _ _ hp
  · rw [h.home]
    exact hall _ _ hp

/-! ### Places set and cleared -/

/-- The root stays a directory. -/
theorem ne_nil_of_at? {d : Disk} {p : Place} (h : d.at? p ≠ some .directory) : p ≠ [] := by
  rintro rfl
  exact h rfl

/-- Clearing a place leaves every other one as it is. -/
theorem at?_clear_ne {d : Disk} {p q : Place} (h : q ≠ p) : (d.clear p).at? q = d.at? q := by
  rw [← at?_set_ne (d := d) (n := .directory) h]
  have hqp : (q == p) = false := beq_eq_false_iff_ne.2 h
  simp only [at?, clear, set, List.lookup_cons, hqp]

/-- What is set where no directory stands keeps the directories. -/
theorem keeps_set {d : Disk} {p : Place} (n : Node) (h : d.at? p ≠ some .directory) :
    d.Keeps (d.set p n) := by
  refine ⟨rfl, fun q hq => ?_⟩
  rw [at?_set_ne]
  · exact hq
  · rintro rfl
    exact h hq

/-- So does a directory, wherever it is set. -/
theorem keeps_set_directory (d : Disk) (p : Place) : d.Keeps (d.set p .directory) := by
  refine ⟨rfl, fun q hq => ?_⟩
  by_cases hqp : q = p
  · subst hqp
    by_cases hroot : q = []
    · subst hroot
      rfl
    · exact at?_set_self hroot
  · rw [at?_set_ne hqp]
    exact hq

/-- And so does a move from one place to another where no directories stand. -/
theorem keeps_move {d : Disk} {p q : Place} (n : Node) (hp : d.at? p ≠ some .directory)
    (hq : d.at? q ≠ some .directory) : d.Keeps ((d.clear p).set q n) := by
  refine ⟨rfl, fun r hr => ?_⟩
  rw [at?_set_ne, at?_clear_ne]
  · exact hr
  · rintro rfl
    exact hp hr
  · rintro rfl
    exact hq hr

/-! ### Files written and renamed -/

/-- **A file that was written** stands where its path leads, and nothing else has changed. -/
theorem write_eq_ok {d e : Disk} {path : String} {content : Octets}
    (h : d.write path content = .ok e) :
    ∃ p, d.resolve path = .ok p ∧ d.at? p ≠ some .directory ∧ e = d.set p (.file content) := by
  obtain ⟨p, hp, h⟩ := bind_eq_ok h
  refine ⟨p, hp, ?_⟩
  split at h
  · cases h
  · rename_i node hdir hnode
    split_ifs at h
    cases h
    exact ⟨fun hc => hdir (Option.some.inj (hnode.symm.trans hc)), rfl⟩
  · rename_i hnode
    split_ifs at h
    cases h
    exact ⟨hnode ▸ nofun, rfl⟩

/-- **A file that was renamed** stands in the place of the other one. -/
theorem rename_eq_ok {d e : Disk} {source target : String} (h : d.rename source target = .ok e) :
    ∃ p q node, d.resolve source = .ok p ∧ d.resolve target = .ok q ∧ d.at? p = some node ∧
      node ≠ .directory ∧ d.at? q ≠ some .directory ∧ asksDirectory target = false ∧
      e = (d.clear p).set q node := by
  obtain ⟨p, hp, h⟩ := bind_eq_ok h
  obtain ⟨q, hq, h⟩ := bind_eq_ok h
  split_ifs at h with hpoints hasks
  · -- with a path that asks for a directory nothing is renamed, whatever stands at its place
    split at h <;> cases h
  · split at h
    · cases h
    · cases h
    · rename_i node hdir hnode
      split at h
      · cases h
      · rename_i hother
        cases h
        refine ⟨p, q, node, hp, hq, hnode, hdir, hother, ?_, rfl⟩
        exact (Bool.or_eq_false_iff.1 (Bool.eq_false_iff.2 hasks)).2

/-- What a path reads where a file stands. -/
theorem read_file {d : Disk} {path : String} {p : Place} {content : Octets}
    (hp : d.resolve path = .ok p) (hfile : d.at? p = some (.file content))
    (hasks : asksDirectory path = false) : d.read path = .ok content := by
  rw [read, hp]
  simp only [bind, Except.bind, hfile, hasks, Bool.false_eq_true, if_false]

/-! ### Directories made -/

/-- Directories that are made stay. -/
theorem keeps_makeAll (p : Place) (names : List String) (d : Disk) :
    d.Keeps (makeAll p names d).2 := by
  induction names generalizing p d with
  | nil => exact Keeps.refl d
  | cons name names ih =>
    unfold makeAll
    split
    · exact Keeps.refl d
    · rename_i q _
      split
      · split
        · exact Keeps.refl d
        · exact (keeps_set_directory d q).trans (ih q _)
      · exact ih q d
      · exact Keeps.refl d

theorem keeps_of_makeAll {p : Place} {names : List String} {d e : Disk}
    {result : Except DiskFault Unit} (h : makeAll p names d = (result, e)) : d.Keeps e := by
  have hkeeps := keeps_makeAll p names d
  rwa [h] at hkeeps

/-- Every name on the way from a place leads into a directory. -/
def Leads (d : Disk) : Place → List String → Prop
  | _, [] => True
  | p, name :: names => ∃ q, d.enter p name = .ok q ∧ d.at? q = some .directory ∧ d.Leads q names

theorem leads_of_keeps {d e : Disk} (h : d.Keeps e) {p : Place} {names : List String}
    (hd : d.Leads p names) : e.Leads p names := by
  induction names generalizing p with
  | nil => trivial
  | cons name names ih =>
    obtain ⟨q, henter, hdir, hrest⟩ := hd
    exact ⟨q, enter_of_keeps h henter, h.directory q hdir, ih hrest⟩

/-- Behind the making of directories they all are there. -/
theorem leads_makeAll {p : Place} {names : List String} {d e : Disk}
    (h : makeAll p names d = (.ok (), e)) : e.Leads p names := by
  induction names generalizing p d with
  | nil => trivial
  | cons name names ih =>
    have hkeeps : d.Keeps e := keeps_of_makeAll h
    unfold makeAll at h
    split at h
    · cases h
    · rename_i q henter
      split at h
      · split at h
        · cases h
        · have hset : (d.set q .directory).Keeps e := keeps_of_makeAll h
          refine ⟨q, enter_of_keeps hkeeps henter, hset.directory q ?_, ih h⟩
          by_cases hroot : q = []
          · subst hroot
            rfl
          · exact at?_set_self hroot
      · rename_i hdir
        exact ⟨q, enter_of_keeps hkeeps henter, hkeeps.directory q hdir, ih h⟩
      · cases h

/-- **Where all directories are there, making them changes nothing.** -/
theorem makeAll_of_leads {p : Place} {names : List String} {d : Disk} (h : d.Leads p names) :
    makeAll p names d = (.ok (), d) := by
  induction names generalizing p with
  | nil => rfl
  | cons name names ih =>
    obtain ⟨q, henter, hdir, hrest⟩ := h
    rw [makeAll, henter]
    simp only [hdir]
    exact ih hrest

/-- **Directories that have been made are there when they are made again**, also after other
changes that keep them. -/
theorem makeDirectories_again {d e f : Disk} {path : String}
    (h : d.makeDirectories path = (.ok (), e)) (hkeeps : e.Keeps f) :
    f.makeDirectories path = (.ok (), f) := by
  have hmade : ∀ start : Place, makeAll start (pathNames path) d = (.ok (), e) →
      makeAll start (pathNames path) f = (.ok (), f) :=
    fun start hm => makeAll_of_leads (leads_of_keeps hkeeps (leads_makeAll hm))
  unfold makeDirectories at h ⊢
  by_cases hnull : path.toList.contains '\x00' = true
  · rw [if_pos hnull] at h
    cases h
  by_cases hlong : 4096 ≤ path.utf8ByteSize
  · rw [if_neg hnull, if_pos hlong] at h
    cases h
  rw [if_neg hnull, if_neg hlong] at h ⊢
  have hhome : f.home = d.home := hkeeps.home.trans (keeps_of_makeAll h).home
  rw [hhome]
  exact hmade _ h

end Disk

namespace FileStore

/-! ### The file behind a snapshot -/

/-- **Behind a snapshot the file holds the words for the metrics**, and every directory is still
there. -/
theorem read_of_sync {s : FileStore} {d e : Disk} (h : s.sync d = (.ok (), e)) :
    e.read s.path = .ok (words s.memory) ∧ d.Keeps e := by
  unfold sync at h
  cases hw : writeBeside s.path (words s.memory) d with
  | error f =>
    rw [hw] at h
    cases h
  | ok b =>
    rw [hw] at h
    simp only at h
    cases hr : replace s.path b with
    | error f =>
      rw [hr] at h
      cases h
    | ok c =>
      rw [hr] at h
      cases h
      obtain ⟨p, hp, hpdir, rfl⟩ := Disk.write_eq_ok hw
      -- the directories are the same all along, so each path leads to one place
      obtain ⟨p', q, node, hp', hq, hnode, hnodedir, hqdir, hasks, rfl⟩ := Disk.rename_eq_ok hr
      have hset := Disk.keeps_set (.file (words s.memory)) hpdir
      -- the file that was renamed is the one just written
      obtain rfl : p = p' := Except.ok.inj ((Disk.resolve_of_keeps hset hp).symm.trans hp')
      obtain rfl : Node.file (words s.memory) = node :=
        Option.some.inj ((Disk.at?_set_self (Disk.ne_nil_of_at? hpdir)).symm.trans hnode)
      have hkeeps := Disk.keeps_move (.file (words s.memory))
        (fun hc => hnodedir (Option.some.inj (hnode.symm.trans hc))) hqdir
      exact ⟨Disk.read_file (Disk.resolve_of_keeps hkeeps hq)
        (Disk.at?_set_self (Disk.ne_nil_of_at? hqdir)) hasks, hset.trans hkeeps⟩

/-- Opening succeeded once, so the directory of the file is there. -/
theorem makeParent_again {path : String} {d e f : Disk} (h : makeParent path d = (.ok (), e))
    (hkeeps : e.Keeps f) : makeParent path f = (.ok (), f) := by
  unfold makeParent at h ⊢
  split at h
  · rfl
  · rfl
  · rename_i parent _ _
    cases hm : d.makeDirectories parent with
    | mk result g =>
      rw [hm] at h
      cases result with
      | error fault => cases h
      | ok u =>
        cases h
        rw [Disk.makeDirectories_again hm hkeeps]

end FileStore

end Telemetry
