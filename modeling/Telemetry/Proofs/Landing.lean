import Mathlib
import Telemetry.Proofs.Beside
import Telemetry.Proofs.Sharing

/-!
# The file is never torn and never goes backwards

Whatever turns are taken, and wherever they break off, the file that a store is kept in holds what
it held before the store was opened, or the words for a whole copy. Two things carry the proof. The
words are written beside the file, so that only the renaming touches it. And one snapshot at a time
is at the desk, from before its first map is copied until the file is replaced: so while it is
there nothing else lands, and every copy that landed earlier had been made before this one was
begun (`Stage.Holds`, `Stage.holds_run`).

* `copyAt`: the copy that a stamp stands for;
* `Shared.taken_run`, `Shared.ordered_run`: the snapshots that landed, in order of time;
* `Shared.onDisk_run`: what the file holds;
* `Shared.faithful`: all of this, and what an answer says about it.
-/

namespace Telemetry

open FileStore

/-- The copy whose maps were copied at two instants of a run. -/
def copyAt (X : Nat → Shared) (c : Stamp) : Memory :=
  ⟨(X c.gauges).store.memory.gauges, (X c.counters).store.memory.counters⟩

/-- The snapshots that have landed when one has come to its end. -/
def Stamp.outcome (X : Nat → Shared) (c : Stamp) : Except Failure Unit → List Stamp
  | .ok () => c :: (X c.gauges).landed
  | .error _ => (X c.gauges).landed

/-- A copy was made before some instant, the gauges first. -/
structure Stamp.Before (c : Stamp) (t : Nat) : Prop where
  /-- The gauges were copied before the counters. -/
  gauges_lt : c.gauges < c.counters
  /-- And these before the instant. -/
  counters_lt : c.counters < t

theorem Stamp.Before.mono {c : Stamp} {t u : Nat} (h : c.Before t) (htu : t ≤ u) : c.Before u :=
  ⟨h.gauges_lt, h.counters_lt.trans_le htu⟩

/-! ### The snapshot at the desk -/

/-- **How far a snapshot has come** at some instant of a run: what it has copied is what was in
memory then, and nothing has landed since it was begun. -/
def Stage.Holds (X : Nat → Shared) (t : Nat) : Stage → Prop
  | .copying => True
  | .halfway g gauges => g < t ∧ gauges = (X g).store.memory.gauges ∧ (X t).landed = (X g).landed
  | .writing c copy => c.Before t ∧ copy = copyAt X c ∧ (X t).landed = (X c.gauges).landed
  | .replacing c copy =>
    c.Before t ∧ copy = copyAt X c ∧ (X t).landed = (X c.gauges).landed ∧
      (X t).disk.Contains (besidePath (X t).store.path) (words copy)
  | .leaving c result => c.Before t ∧ (X t).landed = c.outcome X result

variable {X : Nat → Shared} {t : Nat}

/-- Turns taken elsewhere leave a snapshot where it is. -/
theorem Stage.Holds.succ {stage : Stage} (h : stage.Holds X t)
    (hlanded : (X (t + 1)).landed = (X t).landed) (hdisk : (X (t + 1)).disk = (X t).disk)
    (hpath : (X (t + 1)).store.path = (X t).store.path) : stage.Holds X (t + 1) := by
  cases stage with
  | copying => trivial
  | halfway g gauges =>
    obtain ⟨hg, hgauges, hsame⟩ := h
    exact ⟨hg.trans t.lt_succ_self, hgauges, hlanded.trans hsame⟩
  | writing c copy =>
    obtain ⟨hc, hcopy, hsame⟩ := h
    exact ⟨hc.mono t.le_succ, hcopy, hlanded.trans hsame⟩
  | replacing c copy =>
    obtain ⟨hc, hcopy, hsame, hbeside⟩ := h
    exact ⟨hc.mono t.le_succ, hcopy, hlanded.trans hsame, by rwa [hdisk, hpath]⟩
  | leaving c result =>
    obtain ⟨hc, hsame⟩ := h
    exact ⟨hc.mono t.le_succ, hlanded.trans hsame⟩

namespace Shared

variable {s : FileStore} {d : Disk} {turns : Nat → Turn}

/-- **The snapshot at the desk is where it says it is**, at every instant of a run. -/
theorem holds_run (t : Nat) {k : Ticket} {stage : Stage}
    (h : (run s d turns t).session = some ⟨k, stage⟩) : stage.Holds (run s d turns) t := by
  induction t generalizing k stage with
  | zero => cases h
  | succ t ih =>
    obtain ⟨y, hy, heq⟩ := effect_run s d turns t
    have hclock : (run s d turns t).clock = t := clock_run t
    have hpath : (run s d turns (t + 1)).store.path = (run s d turns t).store.path := by simp
    have hlanded : (run s d turns (t + 1)).landed = y.landed := by rw [heq]
    have hdisk : (run s d turns (t + 1)).disk = y.disk := by rw [heq]
    rw [heq] at h
    cases hy with
    | idle | asked | retired | applied | queued | signalled | excused =>
      exact (ih h).succ hlanded hdisk hpath
    | entered =>
      cases h
      trivial
    | halved hsession =>
      cases h
      rw [hclock]
      exact ⟨t.lt_succ_self, rfl, by rw [heq]; rfl⟩
    | copied hsession =>
      cases h
      obtain ⟨hg, hgauges, hsame⟩ := ih hsession
      rw [hclock]
      refine ⟨⟨hg, t.lt_succ_self⟩, ?_, ?_⟩
      · rw [copyAt, hgauges]
      · rw [heq]
        exact hsame
    | spilled hsession hd =>
      -- what has been written beside the file does not matter yet
      obtain ⟨hc, hcopy, hsame⟩ := ih hsession
      obtain ⟨rfl, rfl⟩ := Session.mk.inj (Option.some.inj (hsession.symm.trans h))
      exact ⟨hc.mono t.le_succ, hcopy, by rw [heq]; exact hsame⟩
    | wrote hsession hd =>
      cases h
      obtain ⟨hc, hcopy, hsame⟩ := ih hsession
      refine ⟨hc.mono t.le_succ, hcopy, by rw [heq]; exact hsame, ?_⟩
      rw [hpath, heq]
      exact contains_writeBeside hd
    | landed hsession hd =>
      -- this one has landed now, on top of what had when it was begun
      cases h
      obtain ⟨hc, -, hsame, -⟩ := ih hsession
      refine ⟨hc.mono t.le_succ, ?_⟩
      rw [heq, Stamp.outcome, ← hsame]
      rfl
    | refused e hsession =>
      cases h
      rcases hsession with hsession | hsession
      · obtain ⟨hc, -, hsame⟩ := ih hsession
        exact ⟨hc.mono t.le_succ, by rw [heq]; exact hsame⟩
      · obtain ⟨hc, -, hsame, -⟩ := ih hsession
        exact ⟨hc.mono t.le_succ, by rw [heq]; exact hsame⟩
    | left => cases h

/-! ### What has landed -/

/-- **Every snapshot that landed was copied before.** -/
theorem taken_run (t : Nat) : ∀ c ∈ (run s d turns t).landed, c.Before t := by
  induction t with
  | zero => exact fun c hc => absurd hc List.not_mem_nil
  | succ t ih =>
    obtain ⟨y, hy, heq⟩ := effect_run s d turns t
    have hold : ∀ c ∈ (run s d turns t).landed, c.Before (t + 1) :=
      fun c hc => (ih c hc).mono t.le_succ
    rw [heq]
    rcases hy.landed_eq with hlanded | ⟨k, c, copy, d', hsession, -, rfl⟩
    · exact hlanded ▸ hold
    · exact List.forall_mem_cons.2 ⟨(holds_run t hsession).1.mono t.le_succ, hold⟩

/-- **In order of time**: what landed later was copied later, from its first map on. -/
theorem ordered_run (t : Nat) :
    (run s d turns t).landed.Pairwise fun c old => old.counters < c.gauges := by
  induction t with
  | zero => exact .nil
  | succ t ih =>
    obtain ⟨y, hy, heq⟩ := effect_run s d turns t
    rw [heq]
    rcases hy.landed_eq with hlanded | ⟨k, c, copy, d', hsession, -, rfl⟩
    · exact hlanded ▸ ih
    · -- all that had landed had landed when this one was begun
      obtain ⟨-, -, hsame, -⟩ := holds_run t hsession
      refine List.pairwise_cons.2 ⟨fun old hold => ?_, ih⟩
      rw [hsame] at hold
      exact (taken_run c.gauges old hold).counters_lt

/-- **An answer tells what has landed**: the snapshot made for it, or nothing since that was begun. -/
theorem answered_run (t : Nat) : ∀ r ∈ (run s d turns t).receipts, r.instant ≤ t ∧
    ∀ c, r.stamp = some c → c.Before r.instant ∧
      (run s d turns r.instant).landed = c.outcome (run s d turns) r.result := by
  induction t with
  | zero => exact fun r hr => absurd hr List.not_mem_nil
  | succ t ih =>
    obtain ⟨y, hy, heq⟩ := effect_run s d turns t
    have hold : ∀ r ∈ (run s d turns t).receipts, r.instant ≤ t + 1 ∧
        ∀ c, r.stamp = some c → c.Before r.instant ∧
          (run s d turns r.instant).landed = c.outcome (run s d turns) r.result :=
      fun r hr => ⟨(ih r hr).1.trans t.le_succ, (ih r hr).2⟩
    have hlanded : (run s d turns (t + 1)).landed = y.landed := by rw [heq]
    rw [heq]
    rcases hy.receipts_eq with hreceipts | ⟨p, k, phase, -, -, hreceipts⟩ |
      ⟨k, c, result, hsession, hsame, hreceipts⟩
    · exact hreceipts ▸ hold
    · simp only [hreceipts, clock_run]
      exact List.forall_mem_cons.2 ⟨⟨le_rfl, nofun⟩, hold⟩
    · simp only [hreceipts, clock_run]
      refine List.forall_mem_cons.2 ⟨⟨le_rfl, fun c' hc' => ?_⟩, hold⟩
      obtain rfl : c = c' := Option.some.inj hc'
      obtain ⟨hc, houtcome⟩ := holds_run t hsession
      exact ⟨hc.mono t.le_succ, hlanded.trans (hsame.trans houtcome)⟩

/-! ### What the file holds -/

/-- No directory comes or goes. -/
theorem alike_run (t : Nat) : d.Alike (run s d turns t).disk := by
  induction t with
  | zero => exact .refl d
  | succ t ih =>
    obtain ⟨y, hy, heq⟩ := effect_run s d turns t
    rw [heq]
    rcases hy.disk_eq with hdisk | ⟨k, c, copy, content, -, hd, -⟩ | ⟨k, c, copy, -, hd, -⟩
    · exact hdisk ▸ ih
    · exact ih.trans (alike_writeBeside hd)
    · exact ih.trans (alike_replace hd)

end Shared

/-- **What the file holds**: what it held on an earlier disk, or the words for the copy that landed
last. -/
def OnDisk (d : Disk) (path : String) (X : Nat → Shared) (e : Disk) : List Stamp → Prop
  | [] => ∀ q, d.resolve path = .ok q → e.at? q = d.at? q
  | c :: _ => Disk.asksDirectory path = false ∧ e.Contains path (words (copyAt X c))

/-- Writing beside the file does not change that. -/
theorem OnDisk.beside {d e f : Disk} {path : String} {content : Octets} {landed : List Stamp}
    (h : OnDisk d path X e landed) (halike : d.Alike e)
    (hf : writeBeside path content e = .ok f) : OnDisk d path X f landed := by
  cases landed with
  | nil =>
    intro q hq
    rw [at?_writeBeside hf ((Disk.resolve_iff halike).2 hq), h q hq]
  | cons c older =>
    obtain ⟨hasks, q, hq, hfile⟩ := h
    refine ⟨hasks, q, (Disk.resolve_iff (alike_writeBeside hf)).2 hq, ?_⟩
    rw [at?_writeBeside hf hq, hfile]

namespace Shared

variable {s : FileStore} {d : Disk} {turns : Nat → Turn}

theorem onDisk_run (t : Nat) : OnDisk d s.path (run s d turns) (run s d turns t).disk
    (run s d turns t).landed := by
  induction t with
  | zero => exact fun _ _ => rfl
  | succ t ih =>
    obtain ⟨y, hy, heq⟩ := effect_run s d turns t
    have hpath : (run s d turns t).store.path = s.path := path_run t
    rw [heq]
    rcases hy.landed_eq with hlanded | ⟨k, c, copy, e, hsession, hd, rfl⟩
    · simp only [hlanded]
      rcases hy.disk_eq with hdisk | ⟨k, c, copy, content, -, hd, -⟩ | ⟨k, c, copy, -, -, hmore⟩
      · exact hdisk ▸ ih
      · rw [hpath] at hd
        exact ih.beside (alike_run t) hd
      · simp [hlanded] at hmore
    · -- what is beside the file now is the copy that this snapshot was made of
      obtain ⟨-, hcopy, -, hbeside⟩ := holds_run t hsession
      rw [hpath, hcopy] at hbeside
      rw [hpath] at hd
      exact contains_replace hd hbeside

/-! ### Whose snapshots there are -/

end Shared

/-- Are metrics to be applied? -/
def Errand.isChange : Errand → Bool
  | .change _ => true
  | _ => false

/-- A change asks for a snapshot only if one is to be made behind every change. -/
def Post.Fits (through : Bool) : Post → Prop
  | .busy k .waiting => k.errand.isChange = true → through = true
  | .busy k .ending | .busy k .joining => k.errand.isChange = false
  | _ => True

namespace Shared

variable {s : FileStore} {d : Disk} {turns : Nat → Turn}

theorem fits_run (t : Nat) : (∀ p, ((run s d turns t).post p).Fits s.writesThrough) ∧
    ∀ k stage, (run s d turns t).session = some ⟨k, stage⟩ → k.errand.isChange = true →
      s.writesThrough = true := by
  induction t with
  | zero => exact ⟨forall_post_start (fun _ => trivial) (fun _ => trivial) s d, nofun⟩
  | succ t ih =>
    obtain ⟨y, hy, heq⟩ := effect_run s d turns t
    obtain ⟨hposts, hsession⟩ := ih
    have hmode : (run s d turns t).store.writesThrough = s.writesThrough := by
      simp [writesThrough]
    have hfits {p : Party} {k : Ticket} {phase : Phase}
        (h : (run s d turns t).post p = .busy k phase) : (Post.busy k phase).Fits s.writesThrough :=
      h ▸ hposts p
    have hsend {p : Party} {post : Post} (h : post.Fits s.writesThrough) :=
      forall_post_send (R := fun _ post => post.Fits s.writesThrough) (p := p)
        (fun q _ => hposts q) h
    -- the same call is at the desk, and everyone else is where they were
    have hsame {k : Ticket} {a b : Stage} (h : (run s d turns t).session = some ⟨k, a⟩) :
        ∀ k' stage, some (⟨k, b⟩ : Session) = some ⟨k', stage⟩ → k'.errand.isChange = true →
          s.writesThrough = true := by
      rintro _ _ ⟨⟩
      exact hsession k a h
    rw [heq]
    cases hy with
    | idle => exact ⟨hposts, hsession⟩
    | asked e h =>
      refine ⟨hsend ?_, hsession⟩
      cases e <;> first | trivial | rfl | nofun
    | retired h => exact ⟨hsend trivial, hsession⟩
    | applied h => exact ⟨hsend trivial, hsession⟩
    | queued h hphase =>
      refine ⟨hsend fun hchange => ?_, hsession⟩
      rcases hphase with ⟨-, hthrough⟩ | ⟨rfl, -⟩
      · exact hmode ▸ hthrough
      · exact absurd ((hfits h : _ = false).symm.trans hchange) Bool.false_ne_true
    | signalled h =>
      have hstop := hfits h
      refine ⟨hsend ?_, hsession⟩
      exact hstop
    | excused h => exact ⟨hsend trivial, hsession⟩
    | entered h =>
      refine ⟨hsend trivial, ?_⟩
      rintro _ _ ⟨⟩
      exact hfits h
    | halved h | copied h | wrote h | landed h => exact ⟨hposts, hsame h⟩
    | spilled => exact ⟨hposts, hsession⟩
    | refused e h => exact ⟨hposts, h.elim hsame hsame⟩
    | left => exact ⟨hsend trivial, nofun⟩

end Shared

/-! ### The whole of it -/

/-- **What can be said of a run at any instant**, of a store that was opened on some disk. -/
structure Faithful (settings : FileSettings) (before : Disk) (turns : Nat → Turn)
    (X : Nat → Shared) (t : Nat) : Prop where
  /-- The file holds what it held, or the words for the copy that landed last. -/
  file : ∀ q, (X t).disk.resolve settings.path = .ok q →
    (X t).disk.fileAt q = match (X t).landed with
      | [] => before.fileAt q
      | c :: _ => some (.file (words (copyAt X c)))
  /-- And whoever reads it finds that. -/
  read : ∀ c older, (X t).landed = c :: older →
    (X t).disk.read settings.path = .ok (words (copyAt X c))
  /-- Every copy had been made before, -/
  taken : ∀ c ∈ (X t).landed, c.Before t
  /-- and each as a whole behind those that landed earlier. -/
  ordered : (X t).landed.Pairwise fun c old => old.counters < c.gauges
  /-- A snapshot that was answered with success has landed, and no other one while it was made. -/
  succeeded : ∀ r ∈ (X t).receipts, ∀ c, r.stamp = some c → r.result = .ok () →
    c.Before r.instant ∧ r.instant ≤ t ∧ (X r.instant).landed = c :: (X c.gauges).landed
  /-- One that was answered with an error left the file as it was. -/
  failed : ∀ r ∈ (X t).receipts, ∀ c e, r.stamp = some c → r.result = .error e →
    c.Before r.instant ∧ r.instant ≤ t ∧ ∀ i, c.gauges ≤ i → i ≤ r.instant →
      (X i).landed = (X c.gauges).landed ∧
      ∀ q, (X i).disk.resolve settings.path = .ok q →
        (X i).disk.fileAt q = (X c.gauges).disk.fileAt q
  /-- And where snapshots are made at intervals, no change asks the disk for anything. -/
  quiet : settings.interval ≠ 0 → (X (t + 1)).disk ≠ (X t).disk →
    (turns t = .work ∨ ∃ n, turns t = .spill n) ∧
      ∃ ticket stage, (X t).session = some ⟨ticket, stage⟩ ∧ ticket.errand.isChange = false

namespace Shared

variable {s : FileStore} {d : Disk} {turns : Nat → Turn}

/-- A store is opened with its settings, and without touching a file. -/
theorem openAt_eq_ok {settings : FileSettings} {time : Nat} {before : Disk}
    (h : FileStore.openAt settings time before = (.ok s, d)) :
    s.path = settings.path ∧ s.interval = settings.interval ∧
      makeParent settings.path before = (.ok (), d) := by
  unfold FileStore.openAt at h
  split at h
  · cases h
  · rename_i hmade
    obtain ⟨hs, rfl⟩ := Prod.mk.inj h
    cases hs
    exact ⟨rfl, rfl, hmade⟩

/-- What the file holds is told by what has landed. -/
theorem file_run {t : Nat} {q : Place} (hq : (run s d turns t).disk.resolve s.path = .ok q) :
    (run s d turns t).disk.fileAt q = match (run s d turns t).landed with
      | [] => d.fileAt q
      | c :: _ => some (.file (words (copyAt (run s d turns) c))) := by
  have hdisk : OnDisk d s.path (run s d turns) (run s d turns t).disk (run s d turns t).landed :=
    onDisk_run t
  split
  · rename_i hlanded
    rw [hlanded] at hdisk
    exact Disk.fileAt_of_at? (hdisk q ((Disk.resolve_iff (alike_run t)).1 hq))
  · rename_i hlanded
    rw [hlanded] at hdisk
    exact hdisk.2.fileAt hq

/-- And whoever reads it finds the words for the copy that landed last. -/
theorem read_run {t : Nat} {c : Stamp} {older : List Stamp}
    (h : (run s d turns t).landed = c :: older) :
    (run s d turns t).disk.read s.path = .ok (words (copyAt (run s d turns) c)) := by
  have hdisk : OnDisk d s.path (run s d turns) (run s d turns t).disk (run s d turns t).landed :=
    onDisk_run t
  rw [h] at hdisk
  exact hdisk.2.read hdisk.1

/-- As long as nothing lands the file stays as it is. -/
theorem file_eq_of_landed_eq {i t : Nat}
    (h : (run s d turns i).landed = (run s d turns t).landed) {q : Place}
    (hq : (run s d turns i).disk.resolve s.path = .ok q) :
    (run s d turns i).disk.fileAt q = (run s d turns t).disk.fileAt q := by
  have hq' : (run s d turns t).disk.resolve s.path = .ok q :=
    (Disk.resolve_iff (alike_run t)).2 ((Disk.resolve_iff (alike_run i)).1 hq)
  rw [file_run hq, file_run hq', h]

/-- Between two instants at which the same has landed nothing else has. -/
theorem landed_between {i j t : Nat} (hij : i ≤ j) (hjt : j ≤ t)
    (h : (run s d turns t).landed = (run s d turns i).landed) :
    (run s d turns j).landed = (run s d turns i).landed := by
  refine ((landed_mono hij).eq_of_length_le ?_).symm
  rw [← h]
  exact (landed_mono hjt).length_le

/-- The disk is asked at the desk, and where there are intervals no change is there. -/
theorem quiet_run {t : Nat} (hinterval : s.interval ≠ 0)
    (h : (run s d turns (t + 1)).disk ≠ (run s d turns t).disk) :
    (turns t = .work ∨ ∃ n, turns t = .spill n) ∧
      ∃ k stage, (run s d turns t).session = some ⟨k, stage⟩ ∧ k.errand.isChange = false := by
  refine ⟨disk_act_ne h, ?_⟩
  have hthrough : s.writesThrough = false := beq_eq_false_iff_ne.2 hinterval
  have hdesk {k : Ticket} {stage : Stage} (hsession : (run s d turns t).session = some ⟨k, stage⟩) :
      ∃ k stage, (run s d turns t).session = some ⟨k, stage⟩ ∧ k.errand.isChange = false := by
    refine ⟨k, stage, hsession, Bool.eq_false_iff.2 fun hchange => ?_⟩
    exact absurd ((fits_run t).2 k stage hsession hchange) (by simp [hthrough])
  obtain ⟨y, hy, heq⟩ := effect_run s d turns t
  rw [heq] at h
  rcases hy.disk_eq with hdisk | ⟨k, c, copy, content, hsession, -, -⟩ | ⟨k, c, copy, hsession, -, -⟩
  · exact absurd hdisk h
  · exact hdesk hsession
  · exact hdesk hsession

/-- **The file is never torn and never goes backwards**, in whatever order turns are taken and at
whatever instant they break off. -/
theorem faithful {settings : FileSettings} {time : Nat} {before : Disk}
    (h : FileStore.openAt settings time before = (.ok s, d)) (turns : Nat → Turn) (t : Nat) :
    Faithful settings before turns (run s d turns) t := by
  obtain ⟨hpath, hinterval, hmade⟩ := openAt_eq_ok h
  have hopened (q : Place) : d.fileAt q = before.fileAt q := by
    rw [← fileAt_makeParent settings.path before, hmade]
  constructor
  case file =>
    intro q hq
    rw [← hpath] at hq
    simp only [file_run hq, hopened]
  case read =>
    intro c older hlanded
    rw [← hpath]
    exact read_run hlanded
  case taken => exact taken_run t
  case ordered => exact ordered_run t
  case succeeded =>
    intro r hr c hc hresult
    obtain ⟨hinstant, hr⟩ := answered_run t r hr
    obtain ⟨hbefore, houtcome⟩ := hr c hc
    rw [hresult] at houtcome
    exact ⟨hbefore, hinstant, houtcome⟩
  case failed =>
    intro r hr c e hc hresult
    obtain ⟨hinstant, hr⟩ := answered_run t r hr
    obtain ⟨hbefore, houtcome⟩ := hr c hc
    rw [hresult] at houtcome
    refine ⟨hbefore, hinstant, fun i hci hir => ?_⟩
    have hsame := landed_between hci hir houtcome
    refine ⟨hsame, fun q hq => ?_⟩
    rw [← hpath] at hq
    exact file_eq_of_landed_eq hsame hq
  case quiet =>
    intro hnonzero
    rw [← hinterval] at hnonzero
    exact quiet_run hnonzero

/-! ### A snapshot refused and one that lands -/

/-- A file next to the program, with a snapshot behind every change. -/
def throughSettings : FileSettings := ⟨"m", 0, false⟩

/-- The store that is opened with these settings. -/
def throughStore : FileStore := ⟨"m", .empty, 0, 0, false⟩

/-- Pages that are counted. -/
def pages (n : Int64) : Metric := ⟨"pages", .counter n, by decide⟩

/-- Two clients count pages. The first one's snapshot breaks off while its words are written, with the
second one's pages counted between the two copies; then the second one's is made. -/
def refusedThenLanded (t : Nat) : Turn :=
  [.call 0 (.change [pages 2]), .call 1 (.change [pages 3]), .step (.client 0),
    .step (.client 0), .step (.client 0), .work, .step (.client 1), .work, .spill 3, .fail .busy,
    .work, .step (.client 1), .step (.client 1)].getD t .work

/-- What the second snapshot writes. -/
def fivePages : Octets := octetsOf "[\x7b\"id\":\"pages\",\"type\":\"counter\",\"delta\":5\x7d]"

/-- There is no file until the second snapshot has landed, and then it holds all pages. -/
theorem faithful_refusedThenLanded :
    FileStore.openAt throughSettings 0 (Disk.blank ["w"]) =
        (.ok throughStore, Disk.blank ["w"]) ∧
      let X := run throughStore (Disk.blank ["w"]) refusedThenLanded
      (X 16).disk.fileAt ["w", "m"] = none ∧ (X 18).disk.read "m" = .ok fivePages := by
  have hopen : FileStore.openAt throughSettings 0 (Disk.blank ["w"]) =
      (.ok throughStore, Disk.blank ["w"]) := rfl
  have hcopy : copyAt (run throughStore (Disk.blank ["w"]) refusedThenLanded) ⟨13, 14⟩ =
      ⟨.empty, .ofEntries [("pages", 5)]⟩ := by decide +kernel
  have hwords : words ⟨.empty, .ofEntries [("pages", 5)]⟩ = fivePages := by decide +kernel
  refine ⟨hopen, ?_, ?_⟩
  · rw [(faithful hopen refusedThenLanded 16).file ["w", "m"] (by decide +kernel)]
    decide +kernel
  · rw [← hwords, ← hcopy]
    exact (faithful hopen refusedThenLanded 18).read ⟨13, 14⟩ [] (by decide +kernel)

end Shared

end Telemetry
