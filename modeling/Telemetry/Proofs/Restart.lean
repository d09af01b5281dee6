import Mathlib
import Telemetry.Proofs.Calls
import Telemetry.Proofs.Paths
import Telemetry.Proofs.Snapshot

/-!
# Restarts do not show

A store that writes a snapshot behind every change may be dropped between any two calls and
opened again on its file: its clients get the answers that they would have got from a store in
memory that was never dropped.

What carries the proof is what a file **mirrors**: whoever opens it finds the metrics that are
in memory at that moment (`FileStore.Mirrors`). It is so before the first change, when there is
no file and nothing in memory; a change that succeeds makes it so again; and opening the store,
which makes no directory that is not there yet, finds the very store that was dropped.

* `Step`: a call or a restart;
* `FileStore.answers`: the answers to calls between restarts;
* `FileStore.Mirrors.serve`, `FileStore.Mirrors.reopen`: what a step preserves;
* `FileStore.answers_eq_serveAll_inMemory`: restarts do not show.
-/

namespace Telemetry

/-- A call, or a restart at some time. -/
inductive Step where
  /-- A client asks something. -/
  | call (c : Call)
  /-- The store is dropped and opened again. -/
  | restart (time : Nat)

/-- The call of a step, if it is one. -/
def Step.call? : Step → Option Call
  | .call c => some c
  | .restart _ => none

namespace FileStore

/-- The settings of a store that writes through and restores what its file holds. -/
def writeThrough (path : String) : FileSettings := ⟨path, 0, true⟩

/-- The answers to calls between restarts. If the store cannot be opened again, that is the last
answer. -/
def answers (path : String) : Site → List Step → List Answer
  | _, [] => []
  | s, .call c :: steps => match s.serve c with
    | (answer, s) => answer :: answers path s steps
  | s, .restart time :: steps => match openAt (writeThrough path) time s.disk with
    | (.ok f, d) => answers path { s with backend := .file f, disk := d } steps
    | (.error e, _) => [.done (.error e)]

/-- **The site mirrors metrics in memory**: its store holds them, and so does whoever opens the
file, now or behind changes that keep the directories. -/
structure Mirrors (path : String) (m : Memory) (s : Site) : Prop where
  /-- The store writes through to the file, and holds the metrics. -/
  store : ∃ opened, s.backend = .file ⟨path, m, 0, opened, false⟩
  /-- The metrics come back from their words. -/
  restorable : m.Restorable
  /-- The directory of the file is there, and stays there with the others. -/
  parent : ∀ d : Disk, s.disk.Keeps d → makeParent path d = (.ok (), d)
  /-- The file holds the metrics, or there is neither. -/
  file : restoredAt path s.disk = m

/-- **A batch that does not fail** is in memory and in the file. -/
theorem Mirrors.batchUpdate {path : String} {m : Memory} {s : Site} (h : Mirrors path m s)
    {ms : List Metric} (hms : ∀ n ∈ ms, n.value.ReadsBack) (hok : (s.batchUpdate ms).1 = .ok ()) :
    Mirrors path (m.applyAll ms) (s.batchUpdate ms).2 := by
  obtain ⟨backend, disk, waited⟩ := s
  obtain ⟨⟨opened, hs⟩, hm, hparent, hfile⟩ := h
  obtain rfl : backend = .file ⟨path, m, 0, opened, false⟩ := hs
  have hrest := hm.applyAll hms
  cases hsync : (⟨path, m.applyAll ms, 0, opened, false⟩ : FileStore).sync disk with
  | mk result e =>
    have hstep : (⟨.file ⟨path, m, 0, opened, false⟩, disk, waited⟩ : Site).batchUpdate ms =
        (result, ⟨.file ⟨path, m.applyAll ms, 0, opened, false⟩, e, waited⟩) := by
      simp [Site.batchUpdate, FileStore.batchUpdate, afterChange, writesThrough, hsync]
    rw [hstep] at hok ⊢
    obtain rfl : result = .ok () := hok
    obtain ⟨hread, hkeeps⟩ := read_of_sync hsync
    refine ⟨⟨opened, rfl⟩, hrest, fun d hd => hparent d (hkeeps.trans hd), ?_⟩
    show restoredAt path e = m.applyAll ms
    rw [restoredAt, hread]
    exact restored_words hrest

/-- **A call that does not fail** is answered as by a store in memory, and leaves the file with
what is in memory then. -/
theorem Mirrors.serve {path : String} {m : Memory} {s : Site} (h : Mirrors path m s) {c : Call}
    (hc : ∀ n ∈ c.written, n.value.ReadsBack) (hok : (s.serve c).1.isFailedChange = false) :
    (s.serve c).1 = m.answer c ∧ Mirrors path (m.behind c) (s.serve c).2 := by
  have hchange : ∀ ms : List Metric, (∀ n ∈ ms, n.value.ReadsBack) →
      (Answer.done (s.batchUpdate ms).1).isFailedChange = false →
        Answer.done (s.batchUpdate ms).1 = .done (.ok ()) ∧
          Mirrors path (m.applyAll ms) (s.batchUpdate ms).2 := by
    intro ms hms hdone
    cases hresult : (s.batchUpdate ms).1 with
    | error e =>
      rw [hresult] at hdone
      cases hdone
    | ok u => exact ⟨rfl, h.batchUpdate hms hresult⟩
  obtain ⟨opened, hs⟩ := h.store
  cases c with
  | update n =>
    -- one metric is a batch of one
    have hone : s.update n = s.batchUpdate [n] := by
      simp only [Site.update, Site.batchUpdate, hs, FileStore.update]
    show Answer.done (s.update n).1 = _ ∧ Mirrors path (m.applyAll [n]) (s.update n).2
    have hok' : (Answer.done (s.update n).1).isFailedChange = false := hok
    rw [hone] at hok' ⊢
    exact hchange [n] hc hok'
  | batch ms => exact hchange ms hc hok
  | get kind name =>
    refine ⟨?_, h⟩
    show Answer.metric (s.get kind name) = .metric (m.lookup kind name)
    rw [Site.get, hs]
  | list =>
    refine ⟨?_, h⟩
    show Answer.metrics s.list = .metrics (.ok m.snapshot)
    rw [Site.list, hs]

/-- **A restart** finds what was dropped. -/
theorem Mirrors.reopen {path : String} {m : Memory} {s : Site} (h : Mirrors path m s)
    (time : Nat) :
    ∃ f, openAt (writeThrough path) time s.disk = (.ok f, s.disk) ∧
      Mirrors path m { s with backend := .file f } := by
  have hopen : openAt (writeThrough path) time s.disk =
      (.ok ⟨path, m, 0, time, false⟩, s.disk) := by
    rw [openAt, writeThrough, h.parent s.disk (Disk.Keeps.refl s.disk)]
    simp only [if_true, h.file]
    rfl
  exact ⟨_, hopen, ⟨time, rfl⟩, h.restorable, h.parent, h.file⟩

/-- A store that was opened where no file was mirrors nothing. -/
theorem mirrors_openAt {path : String} {restore : Bool} {time : Nat} {d e : Disk} {f : FileStore}
    (hopen : openAt ⟨path, 0, restore⟩ time d = (.ok f, e))
    (hfile : e.read path = .error .notFound) (waited : Nat) :
    Mirrors path .empty ⟨.file f, e, waited⟩ := by
  have hrestored : restoredAt path e = .empty := by
    rw [restoredAt, hfile]
  unfold openAt at hopen
  cases hparent : makeParent path d with
  | mk result g =>
    cases result with
    | error fault =>
      rw [hparent] at hopen
      cases hopen
    | ok u =>
      simp only [hparent] at hopen
      cases hopen
      refine ⟨⟨time, ?_⟩, Memory.kept_empty, fun _ hd => makeParent_again hparent hd,
        hrestored⟩
      cases restore <;> simp [hrestored]

/-- Answers between restarts are those of a store in memory that is never dropped, from any
metrics that are mirrored. -/
theorem Mirrors.answers {path : String} {m : Memory} {s : Site} (h : Mirrors path m s)
    {steps : List Step}
    (hwritten : ∀ c ∈ steps.filterMap Step.call?, ∀ n ∈ c.written, n.value.ReadsBack)
    (hok : ∀ a ∈ answers path s steps, a.isFailedChange = false) :
    FileStore.answers path s steps =
      (Site.inMemory m).serveAll (steps.filterMap Step.call?) := by
  induction steps generalizing m s with
  | nil => rfl
  | cons step steps ih =>
    cases step with
    | call c =>
      have hcalls : (Step.call c :: steps).filterMap Step.call? =
          c :: steps.filterMap Step.call? := rfl
      have hcons : FileStore.answers path s (.call c :: steps) =
          (s.serve c).1 :: FileStore.answers path (s.serve c).2 steps := rfl
      rw [hcalls] at hwritten ⊢
      rw [hcons] at hok ⊢
      -- what the call leaves is mirrored again, so the rest is answered from there
      obtain ⟨hanswer, hnext⟩ := h.serve (hwritten c List.mem_cons_self)
        (hok _ List.mem_cons_self)
      rw [Site.serveAll_inMemory, hanswer]
      congr 1
      exact ih hnext (fun c hc => hwritten c (List.mem_cons_of_mem _ hc))
        fun a ha => hok a (List.mem_cons_of_mem _ ha)
    | restart time =>
      obtain ⟨f, hopen, hnext⟩ := h.reopen time
      have hcons : FileStore.answers path s (.restart time :: steps) =
          FileStore.answers path { s with backend := .file f } steps := by
        rw [FileStore.answers, hopen]
      rw [hcons] at hok ⊢
      exact ih hnext hwritten hok

/-- **Restarts do not show.** A store opened where no file is, writing through, gives between any
restarts the answers that a store in memory gives to the same calls without them, provided that
no change fails and that every gauge written comes back from its own text. -/
theorem answers_eq_serveAll_inMemory {path : String} {restore : Bool} {time : Nat} {d e : Disk}
    {f : FileStore} (hopen : openAt ⟨path, 0, restore⟩ time d = (.ok f, e))
    (hfile : e.read path = .error .notFound) (steps : List Step)
    (hwritten : ∀ c ∈ steps.filterMap Step.call?, ∀ n ∈ c.written, n.value.ReadsBack)
    (hok : ∀ a ∈ answers path ⟨.file f, e, 0⟩ steps, a.isFailedChange = false) :
    answers path ⟨.file f, e, 0⟩ steps =
      (Site.inMemory .empty).serveAll (steps.filterMap Step.call?) :=
  (mirrors_openAt hopen hfile 0).answers hwritten hok

/-- A run with restarts behind every change: a counter close to the end of its range, with a
quote, a control and a letter beyond ASCII in its name, and a gauge. -/
def restartedRun : List Step :=
  [.call (.batch [⟨"é\"\n", .counter 9223372036854775800, by decide⟩,
      ⟨"heat", .gauge (.ofFraction false 3 2), by decide⟩]),
    .restart 5, .call (.update ⟨"é\"\n", .counter 6, by decide⟩), .restart 7, .restart 9,
    .call (.get .counter "é\"\n"), .call .list]

/-- Its answers. The counter has met the six that were added to it behind a restart, and the
list has the gauge, which nobody wrote a second time. -/
def restartedAnswers : List Answer :=
  [.done (.ok ()), .done (.ok ()),
    .metric (.ok ⟨"é\"\n", .counter 9223372036854775806, by decide⟩),
    .metrics (.ok [⟨"heat", .gauge (.ofFraction false 3 2), by decide⟩,
      ⟨"é\"\n", .counter 9223372036854775806, by decide⟩])]

theorem answers_restartedRun :
    let site : Site := ⟨.file ⟨"data/m.json", .empty, 0, 1, false⟩,
      ((Disk.blank ["srv"]).set ["srv", "data"] .directory), 0⟩
    openAt ⟨"data/m.json", 0, true⟩ 1 (Disk.blank ["srv"]) =
        (.ok ⟨"data/m.json", .empty, 0, 1, false⟩, site.disk) ∧
      answers "data/m.json" site restartedRun = restartedAnswers ∧
      answers "data/m.json" site restartedRun =
        (Site.inMemory .empty).serveAll (restartedRun.filterMap Step.call?) := by
  have hopen : openAt ⟨"data/m.json", 0, true⟩ 1 (Disk.blank ["srv"]) =
      (.ok ⟨"data/m.json", .empty, 0, 1, false⟩,
        (Disk.blank ["srv"]).set ["srv", "data"] .directory) := by rfl
  have hfile : ((Disk.blank ["srv"]).set ["srv", "data"] .directory).read "data/m.json" =
      .error .notFound := by decide +kernel
  have hrun : answers "data/m.json" ⟨.file ⟨"data/m.json", .empty, 0, 1, false⟩,
      ((Disk.blank ["srv"]).set ["srv", "data"] .directory), 0⟩ restartedRun =
        restartedAnswers := by decide +kernel
  refine ⟨hopen, hrun, answers_eq_serveAll_inMemory hopen hfile restartedRun ?_ ?_⟩
  · decide +kernel
  · rw [hrun]
    decide

end FileStore

end Telemetry
