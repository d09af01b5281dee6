import Mathlib
import Telemetry.Store.FileStore

/-!
# A file store that several use at once

Clients change the metrics of a file store, ask for snapshots and stop it, all at the same time,
and a ticker asks for a snapshot now and then. What they do comes in **turns**, in any order. In
one turn a client applies one metric, or asks for its turn at the desk; whoever sits at the
**desk** makes a snapshot there, one step of it in each turn, and no one else does so meanwhile.
The disk may refuse what it is asked for, and the writing beside the file may stop anywhere.

Which instants are meant by a claim about such runs is told by what is written down beside the
store: every metric that was applied goes to a log, every snapshot that took the place of the file
is remembered by its `Stamp`, the instants at which the two maps were copied, and every answer is
kept as a `Receipt`. An instant is the number of turns before it. None of this is read by anyone
who takes a turn. An answer counts from when the desk is left; whoever returns with it later does
so at a later instant.

* `Shared`, `Turn`, `Shared.act`, `Shared.run`: the store, the turns, and a run;
* `Shared.Effect`, `Shared.effect_turn`: all that a turn can do;
* `Shared.play_change`, `play_flush`, `play_tick`, `play_stop`: turns taken without others between
  them are the calls of a file store, and its ticks.
-/

namespace Telemetry

/-! ### Errands -/

/-- Who works on a store. -/
inductive Party where
  /-- One of the clients. -/
  | client (number : Nat)
  /-- The one that asks for a snapshot at intervals. -/
  | ticker
deriving DecidableEq

/-- What tells one call from all others: who made it, and when. -/
structure Tag where
  /-- Who made it. -/
  party : Party
  /-- The instant at which it was made. -/
  instant : Nat
deriving DecidableEq

/-- What is asked of a store. -/
inductive Errand where
  /-- Metrics are to be applied. -/
  | change (ms : List Metric)
  /-- A snapshot is to be made. -/
  | flush
  /-- The snapshots at intervals are to end, with a last one. -/
  | stop

/-- A call under way. -/
structure Ticket where
  /-- Which call it is. -/
  tag : Tag
  /-- What is asked. -/
  errand : Errand
  /-- The instant from which on all that has been applied for it is in memory. -/
  applied : Nat

/-- How far a call has come that is not at the desk. -/
inductive Phase where
  /-- Metrics are still to be applied. -/
  | applying (rest : List Metric)
  /-- The ticker is to be told to go. -/
  | ending
  /-- The ticker has been told, and is waited for. -/
  | joining
  /-- The desk is waited for. -/
  | waiting

/-- What a call begins with. -/
def Errand.phase : Errand → Phase
  | .change ms => .applying ms
  | .flush => .waiting
  | .stop => .ending

/-- Where someone is. -/
inductive Post where
  /-- Nothing is asked. -/
  | free
  /-- A call is under way. -/
  | busy (ticket : Ticket) (phase : Phase)
  /-- At the desk. -/
  | inside
  /-- The ticker went away. -/
  | gone

/-! ### Sessions -/

/-- The instants at which the two maps of a copy were copied. -/
structure Stamp where
  /-- When the gauges were. -/
  gauges : Nat
  /-- When the counters were. -/
  counters : Nat
deriving DecidableEq

/-- How far a snapshot has come. -/
inductive Stage where
  /-- Nothing has been copied yet. -/
  | copying
  /-- The gauges have been copied. -/
  | halfway (instant : Nat) (gauges : NameMap Binary64)
  /-- There is a copy, and its words are to be written beside the file. -/
  | writing (stamp : Stamp) (copy : Memory)
  /-- They are there, and are to take the place of the file. -/
  | replacing (stamp : Stamp) (copy : Memory)
  /-- The snapshot was made, or could not be. -/
  | leaving (stamp : Stamp) (result : Except Failure Unit)

/-- Someone at the desk. -/
structure Session where
  /-- The call. -/
  ticket : Ticket
  /-- How far its snapshot has come. -/
  stage : Stage

/-- A call that was answered. -/
structure Receipt where
  /-- The call. -/
  ticket : Ticket
  /-- The copy, if a snapshot was to be made. -/
  stamp : Option Stamp
  /-- The answer. -/
  result : Except Failure Unit
  /-- The first instant at which it is there. -/
  instant : Nat

/-- A file store with all who work on it, and what has happened to it. -/
structure Shared where
  /-- The store. -/
  store : FileStore
  /-- The disk. -/
  disk : Disk
  /-- Where everyone is. -/
  post : Party → Post
  /-- Who is at the desk. -/
  session : Option Session
  /-- How many turns there have been. -/
  clock : Nat
  /-- What has been applied, in order. -/
  log : List (Tag × Metric)
  /-- The snapshots that took the place of the file, the latest first. -/
  landed : List Stamp
  /-- The answers, the latest first. -/
  receipts : List Receipt

/-- What may come next. -/
inductive Turn where
  /-- A client calls. -/
  | call (number : Nat) (errand : Errand)
  /-- The ticker asks for a snapshot. -/
  | tick
  /-- The ticker goes away. -/
  | retire
  /-- Someone who is not at the desk takes a step. -/
  | step (party : Party)
  /-- Whoever is at the desk takes a step. -/
  | work
  /-- Some of the words are written beside the file, and not all of them yet. -/
  | spill (count : Nat)
  /-- The disk refuses what is asked for at the desk. -/
  | fail (fault : DiskFault)

namespace Shared

/-! ### Turns -/

/-- Someone at another post. -/
def send (x : Shared) (p : Party) (post : Post) : Shared :=
  { x with post := Function.update x.post p post }

@[simp] theorem post_send_self (x : Shared) (p : Party) (post : Post) :
    (x.send p post).post p = post := Function.update_self ..

theorem post_send_ne (x : Shared) {p q : Party} (post : Post) (h : q ≠ p) :
    (x.send p post).post q = x.post q := Function.update_of_ne h ..

/-- What holds of everyone else holds of everyone, if it holds of whoever is sent. -/
theorem forall_post_send {R : Party → Post → Prop} {x : Shared} {p : Party} {post : Post}
    (h : ∀ q ≠ p, R q (x.post q)) (hp : R p post) : ∀ q, R q ((x.send p post).post q) := by
  intro q
  by_cases hq : q = p
  · subst hq
    rwa [post_send_self]
  · rw [post_send_ne x post hq]
    exact h q hq

/-- A call answered. -/
def answer (x : Shared) (k : Ticket) (stamp : Option Stamp) (result : Except Failure Unit) :
    Shared :=
  { x.send k.tag.party .free with receipts := ⟨k, stamp, result, x.clock + 1⟩ :: x.receipts }

/-- A call made, by someone who is free. -/
def ask (x : Shared) (p : Party) (e : Errand) : Shared :=
  match x.post p with
  | .free => x.send p (.busy ⟨⟨p, x.clock⟩, e, x.clock⟩ e.phase)
  | _ => x

/-- The ticker gone, if it has been told to go and is not at work. -/
def retire (x : Shared) : Shared :=
  match x.post .ticker with
  | .free => if x.store.ticking then x else x.send .ticker .gone
  | _ => x

/-- A metric applied. -/
def applyItem (x : Shared) (p : Party) (k : Ticket) (m : Metric) (rest : List Metric) : Shared :=
  { x.send p (.busy { k with applied := x.clock + 1 } (.applying rest)) with
    store := { x.store with memory := x.store.memory.apply m }
    log := x.log ++ [(k.tag, m)] }

/-- The ticker told to go. -/
def signal (x : Shared) (p : Party) (k : Ticket) : Shared :=
  { x.send p (.busy k .joining) with store := { x.store with ticking := false } }

/-- The desk taken. -/
def enter (x : Shared) (p : Party) (k : Ticket) : Shared :=
  { x.send p .inside with session := some ⟨k, .copying⟩ }

/-- A step of someone who is not at the desk. -/
def step (x : Shared) (p : Party) : Shared :=
  match x.post p with
  | .busy k (.applying (m :: rest)) => x.applyItem p k m rest
  | .busy k (.applying []) =>
    if x.store.writesThrough then x.send p (.busy k .waiting) else x.answer k none (.ok ())
  | .busy k .ending => if x.store.ticking then x.signal p k else x.answer k none (.ok ())
  | .busy k .joining =>
    -- a snapshot that the ticker is making is waited for as well
    match x.post .ticker with
    | .gone => x.send p (.busy k .waiting)
    | _ => x
  | .busy k .waiting =>
    match x.session with
    | none => x.enter p k
    | some _ => x
  | _ => x

/-- The snapshot at the desk at another stage. -/
def stage (x : Shared) (k : Ticket) (stage : Stage) : Shared :=
  { x with session := some ⟨k, stage⟩ }

/-- A snapshot that the disk refuses. -/
def refuse (x : Shared) (k : Ticket) (c : Stamp) (e : DiskFault) : Shared :=
  x.stage k (.leaving c (.error (FileStore.unwritten x.store.path e)))

/-- The words of a copy are beside the file. -/
def written (x : Shared) (k : Ticket) (c : Stamp) (copy : Memory) (d : Disk) : Shared :=
  { x.stage k (.replacing c copy) with disk := d }

/-- A snapshot has taken the place of the file. -/
def land (x : Shared) (k : Ticket) (c : Stamp) (d : Disk) : Shared :=
  { x.stage k (.leaving c (.ok ())) with disk := d, landed := c :: x.landed }

/-- The desk left, with an answer. -/
def leave (x : Shared) (k : Ticket) (c : Stamp) (result : Except Failure Unit) : Shared :=
  { x.answer k (some c) result with session := none }

/-- A step at the desk. -/
def work (x : Shared) : Shared :=
  match x.session with
  | none => x
  | some ⟨k, .copying⟩ => x.stage k (.halfway x.clock x.store.memory.gauges)
  | some ⟨k, .halfway g gauges⟩ =>
    x.stage k (.writing ⟨g, x.clock⟩ ⟨gauges, x.store.memory.counters⟩)
  | some ⟨k, .writing c copy⟩ =>
    match FileStore.writeBeside x.store.path (FileStore.words copy) x.disk with
    | .error e => x.refuse k c e
    | .ok d => x.written k c copy d
  | some ⟨k, .replacing c _⟩ =>
    match FileStore.replace x.store.path x.disk with
    | .error e => x.refuse k c e
    | .ok d => x.land k c d
  | some ⟨k, .leaving c result⟩ => x.leave k c result

/-- Writing that has come to some point. -/
def spill (x : Shared) (n : Nat) : Shared :=
  match x.session with
  | some ⟨_, .writing _ copy⟩ =>
    match FileStore.writeBeside x.store.path ((FileStore.words copy).take n) x.disk with
    | .error _ => x
    | .ok d => { x with disk := d }
  | _ => x

/-- Writing or renaming refused. -/
def fail (x : Shared) (e : DiskFault) : Shared :=
  match x.session with
  | some ⟨k, .writing c _⟩ => x.refuse k c e
  | some ⟨k, .replacing c _⟩ => x.refuse k c e
  | _ => x

/-- What a turn does. Out of turn, nothing. -/
def turn (x : Shared) : Turn → Shared
  | .call n e => x.ask (.client n) e
  | .tick => x.ask .ticker .flush
  | .retire => x.retire
  | .step p => x.step p
  | .work => x.work
  | .spill n => x.spill n
  | .fail e => x.fail e

/-- A turn taken. -/
def act (x : Shared) (u : Turn) : Shared := { x.turn u with clock := x.clock + 1 }

/-- A store that nobody works on yet. -/
def start (s : FileStore) (d : Disk) : Shared where
  store := s
  disk := d
  post
    | .client _ => .free
    -- a snapshot behind every change needs none at intervals
    | .ticker => if s.ticking then .free else .gone
  session := none
  clock := 0
  log := []
  landed := []
  receipts := []

theorem forall_post_start {R : Party → Post → Prop} (hfree : ∀ p, R p .free)
    (hgone : ∀ p, R p .gone) (s : FileStore) (d : Disk) : ∀ p, R p ((start s d).post p) := by
  intro p
  cases p with
  | client n => exact hfree _
  | ticker =>
    simp only [start]
    split
    · exact hfree _
    · exact hgone _

/-- A run: what there is at each instant. It may break off at any of them. -/
def run (s : FileStore) (d : Disk) (turns : Nat → Turn) : Nat → Shared
  | 0 => start s d
  | t + 1 => (run s d turns t).act (turns t)

/-! ### What a turn can do -/

/-- **All that a turn can do.** -/
inductive Effect (x : Shared) : Shared → Prop where
  /-- Nothing. -/
  | idle : Effect x x
  /-- A call is made. -/
  | asked {p : Party} (e : Errand) (h : x.post p = .free) :
      Effect x (x.send p (.busy ⟨⟨p, x.clock⟩, e, x.clock⟩ e.phase))
  /-- The ticker goes. -/
  | retired (h : x.post .ticker = .free) (hticking : x.store.ticking = false) :
      Effect x (x.send .ticker .gone)
  /-- A metric is applied. -/
  | applied {p : Party} {k : Ticket} {m : Metric} {rest : List Metric}
      (h : x.post p = .busy k (.applying (m :: rest))) : Effect x (x.applyItem p k m rest)
  /-- Someone waits for the desk, behind a change or when the ticker has gone. -/
  | queued {p : Party} {k : Ticket} {phase : Phase} (h : x.post p = .busy k phase)
      (hphase : (phase = .applying [] ∧ x.store.writesThrough = true) ∨
        (phase = .joining ∧ x.post .ticker = .gone)) :
      Effect x (x.send p (.busy k .waiting))
  /-- The ticker is told to go. -/
  | signalled {p : Party} {k : Ticket} (h : x.post p = .busy k .ending)
      (hticking : x.store.ticking = true) : Effect x (x.signal p k)
  /-- A call is answered for which no snapshot is made. -/
  | excused {p : Party} {k : Ticket} {phase : Phase} (h : x.post p = .busy k phase)
      (hphase : (phase = .applying [] ∧ x.store.writesThrough = false) ∨
        (phase = .ending ∧ x.store.ticking = false)) :
      Effect x (x.answer k none (.ok ()))
  /-- The desk is taken. -/
  | entered {p : Party} {k : Ticket} (h : x.post p = .busy k .waiting) (hfree : x.session = none) :
      Effect x (x.enter p k)
  /-- The gauges are copied. -/
  | halved {k : Ticket} (h : x.session = some ⟨k, .copying⟩) :
      Effect x (x.stage k (.halfway x.clock x.store.memory.gauges))
  /-- The counters are copied. -/
  | copied {k : Ticket} {g : Nat} {gauges : NameMap Binary64}
      (h : x.session = some ⟨k, .halfway g gauges⟩) :
      Effect x (x.stage k (.writing ⟨g, x.clock⟩ ⟨gauges, x.store.memory.counters⟩))
  /-- A part of the words is written. -/
  | spilled {k : Ticket} {c : Stamp} {copy : Memory} {content : Octets} {d : Disk}
      (h : x.session = some ⟨k, .writing c copy⟩)
      (hd : FileStore.writeBeside x.store.path content x.disk = .ok d) : Effect x { x with disk := d }
  /-- All of the words are written. -/
  | wrote {k : Ticket} {c : Stamp} {copy : Memory} {d : Disk}
      (h : x.session = some ⟨k, .writing c copy⟩)
      (hd : FileStore.writeBeside x.store.path (FileStore.words copy) x.disk = .ok d) :
      Effect x (x.written k c copy d)
  /-- The snapshot takes the place of the file. -/
  | landed {k : Ticket} {c : Stamp} {copy : Memory} {d : Disk}
      (h : x.session = some ⟨k, .replacing c copy⟩)
      (hd : FileStore.replace x.store.path x.disk = .ok d) : Effect x (x.land k c d)
  /-- The snapshot is refused. -/
  | refused {k : Ticket} {c : Stamp} {copy : Memory} (e : DiskFault)
      (h : x.session = some ⟨k, .writing c copy⟩ ∨ x.session = some ⟨k, .replacing c copy⟩) :
      Effect x (x.refuse k c e)
  /-- The desk is left. -/
  | left {k : Ticket} {c : Stamp} {result : Except Failure Unit}
      (h : x.session = some ⟨k, .leaving c result⟩) : Effect x (x.leave k c result)

theorem effect_ask (x : Shared) (p : Party) (e : Errand) : Effect x (x.ask p e) := by
  unfold ask
  split
  · rename_i h
    exact .asked e h
  · exact .idle

theorem effect_retire (x : Shared) : Effect x x.retire := by
  unfold retire
  split
  · rename_i h
    split
    · exact .idle
    · rename_i hticking
      exact .retired h (Bool.eq_false_iff.2 hticking)
  · exact .idle

theorem effect_step (x : Shared) (p : Party) : Effect x (x.step p) := by
  unfold step
  split
  · rename_i h
    exact .applied h
  · rename_i h
    split
    · rename_i hthrough
      exact .queued h (.inl ⟨rfl, hthrough⟩)
    · rename_i hthrough
      exact .excused h (.inl ⟨rfl, Bool.eq_false_iff.2 hthrough⟩)
  · rename_i h
    split
    · rename_i hticking
      exact .signalled h hticking
    · rename_i hticking
      exact .excused h (.inr ⟨rfl, Bool.eq_false_iff.2 hticking⟩)
  · rename_i h
    split
    · rename_i hgone
      exact .queued h (.inr ⟨rfl, hgone⟩)
    · exact .idle
  · rename_i h
    split
    · rename_i hfree
      exact .entered h hfree
    · exact .idle
  · exact .idle

theorem effect_work (x : Shared) : Effect x x.work := by
  unfold work
  split
  · exact .idle
  · rename_i h
    exact .halved h
  · rename_i h
    exact .copied h
  · rename_i h
    split
    · exact .refused _ (.inl h)
    · rename_i hd
      exact .wrote h hd
  · rename_i h
    split
    · exact .refused _ (.inr h)
    · rename_i hd
      exact .landed h hd
  · rename_i h
    exact .left h

theorem effect_spill (x : Shared) (n : Nat) : Effect x (x.spill n) := by
  unfold spill
  split
  · rename_i h
    split
    · exact .idle
    · rename_i hd
      exact .spilled h hd
  · exact .idle

theorem effect_fail (x : Shared) (e : DiskFault) : Effect x (x.fail e) := by
  unfold fail
  split
  · rename_i h
    exact .refused e (.inl h)
  · rename_i h
    exact .refused e (.inr h)
  · exact .idle

/-- **A turn has one of these effects.** -/
theorem effect_turn (x : Shared) (u : Turn) : Effect x (x.turn u) := by
  cases u with
  | call n e => exact effect_ask x (.client n) e
  | tick => exact effect_ask x .ticker .flush
  | retire => exact effect_retire x
  | step p => exact effect_step x p
  | work => exact effect_work x
  | spill n => exact effect_spill x n
  | fail e => exact effect_fail x e

/-! ### What an effect leaves alone -/

variable {x y : Shared}

theorem Effect.settings_eq (h : Effect x y) :
    y.clock = x.clock ∧ y.store.path = x.store.path ∧ y.store.interval = x.store.interval := by
  cases h <;> exact ⟨rfl, rfl, rfl⟩

/-- Metrics are applied one at a time, and in no other way does anything get into memory. -/
theorem Effect.log_eq (h : Effect x y) :
    (y.log = x.log ∧ y.store.memory = x.store.memory) ∨
      ∃ p k m rest, x.post p = .busy k (.applying (m :: rest)) ∧ y = x.applyItem p k m rest := by
  cases h with
  | applied h => exact .inr ⟨_, _, _, _, h, rfl⟩
  | _ => exact .inl ⟨rfl, rfl⟩

/-- The file is replaced at the desk, and nowhere else. -/
theorem Effect.landed_eq (h : Effect x y) :
    y.landed = x.landed ∨ ∃ k c copy d, x.session = some ⟨k, .replacing c copy⟩ ∧
      FileStore.replace x.store.path x.disk = .ok d ∧ y = x.land k c d := by
  cases h with
  | landed h hd => exact .inr ⟨_, _, _, _, h, hd, rfl⟩
  | _ => exact .inl rfl

/-- What is asked of the disk is asked at the desk. -/
theorem Effect.disk_eq (h : Effect x y) :
    y.disk = x.disk ∨ (∃ k c copy content, x.session = some ⟨k, .writing c copy⟩ ∧
        FileStore.writeBeside x.store.path content x.disk = .ok y.disk ∧ y.landed = x.landed) ∨
      ∃ k c copy, x.session = some ⟨k, .replacing c copy⟩ ∧
        FileStore.replace x.store.path x.disk = .ok y.disk ∧ y.landed = c :: x.landed := by
  cases h with
  | spilled h hd => exact .inr (.inl ⟨_, _, _, _, h, hd, rfl⟩)
  | wrote h hd => exact .inr (.inl ⟨_, _, _, _, h, hd, rfl⟩)
  | landed h hd => exact .inr (.inr ⟨_, _, _, h, hd, rfl⟩)
  | _ => exact .inl rfl

/-- A call is answered without a snapshot, or when the desk is left. -/
theorem Effect.receipts_eq (h : Effect x y) :
    y.receipts = x.receipts ∨
      (∃ p k phase, x.post p = .busy k phase ∧
        ((phase = .applying [] ∧ x.store.writesThrough = false) ∨ phase = .ending) ∧
        y.receipts = ⟨k, none, .ok (), x.clock + 1⟩ :: x.receipts) ∨
      ∃ k c result, x.session = some ⟨k, .leaving c result⟩ ∧ y.landed = x.landed ∧
        y.receipts = ⟨k, some c, result, x.clock + 1⟩ :: x.receipts := by
  cases h with
  | excused h hphase => exact .inr (.inl ⟨_, _, _, h, hphase.imp_right And.left, rfl⟩)
  | left h => exact .inr (.inr ⟨_, _, _, h, rfl, rfl⟩)
  | _ => exact .inl rfl

/-- Only a step at the desk asks the disk for anything. -/
theorem disk_act_ne {u : Turn} (h : (x.act u).disk ≠ x.disk) :
    u = .work ∨ ∃ n, u = .spill n := by
  cases u with
  | work => exact .inl rfl
  | spill n => exact .inr ⟨n, rfl⟩
  | call n e | tick =>
    refine absurd ?_ h
    simp only [act, turn, ask]
    split <;> rfl
  | retire =>
    refine absurd ?_ h
    simp only [act, turn, retire]
    split
    · split <;> rfl
    · rfl
  | step p =>
    refine absurd ?_ h
    simp only [act, turn, step]
    repeat' split
    all_goals rfl
  | fail e =>
    refine absurd ?_ h
    simp only [act, turn, fail]
    split <;> rfl

/-! ### Runs -/

section Runs

variable {s : FileStore} {d : Disk} {turns : Nat → Turn}

/-- From one instant to the next there is one effect. -/
theorem effect_run (s : FileStore) (d : Disk) (turns : Nat → Turn) (t : Nat) :
    ∃ y, Effect (run s d turns t) y ∧
      run s d turns (t + 1) = { y with clock := (run s d turns t).clock + 1 } :=
  ⟨_, effect_turn _ (turns t), rfl⟩

/-- An instant is the number of turns before it. -/
@[simp] theorem clock_run (t : Nat) : (run s d turns t).clock = t := by
  induction t with
  | zero => rfl
  | succ t ih => exact congrArg (· + 1) ih

@[simp] theorem path_run (t : Nat) : (run s d turns t).store.path = s.path := by
  induction t with
  | zero => rfl
  | succ t ih =>
    obtain ⟨y, hy, heq⟩ := effect_run s d turns t
    rw [heq]
    exact hy.settings_eq.2.1.trans ih

@[simp] theorem interval_run (t : Nat) : (run s d turns t).store.interval = s.interval := by
  induction t with
  | zero => rfl
  | succ t ih =>
    obtain ⟨y, hy, heq⟩ := effect_run s d turns t
    rw [heq]
    exact hy.settings_eq.2.2.trans ih

/-- **What is in memory** is what was applied, in the order of the log. -/
theorem memory_run (t : Nat) :
    (run s d turns t).store.memory =
      s.memory.applyAll ((run s d turns t).log.map Prod.snd) := by
  induction t with
  | zero => rfl
  | succ t ih =>
    obtain ⟨y, hy, heq⟩ := effect_run s d turns t
    rw [heq]
    rcases hy.log_eq with ⟨hlog, hmemory⟩ | ⟨p, k, m, rest, -, rfl⟩
    · simp only [hlog, hmemory, ih]
    · -- the log and the memory grow by the same metric
      simp only [applyItem, send, ih, List.map_append, Memory.applyAll_append]
      rfl

/-- What holds from one instant to the next holds from any instant to a later one. -/
theorem mono_run {R : Shared → Shared → Prop} (hrefl : ∀ x, R x x)
    (htrans : ∀ x y z, R x y → R y z → R x z) (hstep : ∀ t, R (run s d turns t) (run s d turns (t + 1)))
    {i t : Nat} (h : i ≤ t) : R (run s d turns i) (run s d turns t) := by
  induction h with
  | refl => exact hrefl _
  | step _ ih => exact htrans _ _ _ ih (hstep _)

/-- What was applied stays in the log. -/
theorem log_mono {i t : Nat} (h : i ≤ t) : (run s d turns i).log <+: (run s d turns t).log := by
  refine mono_run (R := fun x y => x.log <+: y.log) (fun _ => List.prefix_rfl)
    (fun _ _ _ => List.IsPrefix.trans) (fun t => ?_) h
  obtain ⟨y, hy, heq⟩ := effect_run s d turns t
  rw [heq]
  rcases hy.log_eq with ⟨hlog, -⟩ | ⟨p, k, m, rest, -, rfl⟩
  · exact hlog ▸ List.prefix_rfl
  · exact List.prefix_append ..

/-- What took the place of the file is remembered. -/
theorem landed_mono {i t : Nat} (h : i ≤ t) :
    (run s d turns i).landed <:+ (run s d turns t).landed := by
  refine mono_run (R := fun x y => x.landed <:+ y.landed) (fun _ => List.suffix_rfl)
    (fun _ _ _ => List.IsSuffix.trans) (fun t => ?_) h
  obtain ⟨y, hy, heq⟩ := effect_run s d turns t
  rw [heq]
  rcases hy.landed_eq with hlanded | ⟨k, c, copy, d', -, -, rfl⟩
  · exact hlanded ▸ List.suffix_rfl
  · exact List.suffix_cons ..

end Runs

/-! ### Turns taken alone -/

/-- Turns taken one behind the other. -/
def play (x : Shared) (turns : List Turn) : Shared := turns.foldl act x

/-- What one turn does is to be followed by the others. -/
theorem play_cons (x : Shared) (u : Turn) (us : List Turn) :
    x.play (u :: us) = (x.act u).play us := rfl

theorem play_append (x : Shared) (us vs : List Turn) :
    x.play (us ++ vs) = (x.play us).play vs := List.foldl_append

/-- **A session without others between its steps is a snapshot.** -/
theorem play_work {k : Ticket} (h : x.session = some ⟨k, .copying⟩) :
    let y := x.play (List.replicate 5 .work)
    y.store = x.store ∧ y.disk = (x.store.sync x.disk).2 ∧ y.session = none ∧
      y.receipts.head?.map Receipt.result = some (x.store.sync x.disk).1 := by
  unfold FileStore.sync
  -- one that is refused is over sooner, and the steps that are left do nothing
  cases hw : FileStore.writeBeside x.store.path (FileStore.words x.store.memory) x.disk with
  | error e =>
    simp [play, act, turn, work, stage, refuse, leave, answer, send, h, hw]
  | ok d =>
    cases hr : FileStore.replace x.store.path d with
    | error e =>
      simp [play, act, turn, work, stage, refuse, written, leave, answer, send, h, hw, hr]
    | ok e =>
      simp [play, act, turn, work, stage, written, land, leave, answer, send, h, hw, hr]

/-- Metrics applied by someone without others between them. -/
theorem play_applying {p : Party} {k : Ticket} {ms : List Metric}
    (h : x.post p = .busy k (.applying ms)) :
    let y := x.play (List.replicate ms.length (.step p))
    y.store = { x.store with memory := x.store.memory.applyAll ms } ∧ y.disk = x.disk ∧
      y.session = x.session ∧ ∃ k', y.post p = .busy k' (.applying []) := by
  induction ms generalizing x k with
  | nil => exact ⟨rfl, rfl, rfl, k, h⟩
  | cons m ms ih =>
    have hact : x.act (.step p) = { x.applyItem p k m ms with clock := x.clock + 1 } := by
      simp [act, turn, step, h]
    have hpost : (x.act (.step p)).post p =
        .busy { k with applied := x.clock + 1 } (.applying ms) := by
      rw [hact]
      exact post_send_self ..
    obtain ⟨hstore, hdisk, hsession, hdone⟩ := ih hpost
    refine ⟨hstore.trans ?_, hdisk.trans ?_, hsession.trans ?_, hdone⟩ <;>
    · rw [hact]
      rfl

/-- What is left to do when the desk is waited for. -/
def visit (p : Party) : List Turn := .step p :: List.replicate 5 .work

/-- Whoever waits for a desk at which no one is gets a snapshot. -/
theorem play_visit {p : Party} {k : Ticket} (h : x.post p = .busy k .waiting)
    (hfree : x.session = none) :
    let y := x.play (visit p)
    y.store = x.store ∧ y.disk = (x.store.sync x.disk).2 ∧ y.session = none ∧
      y.receipts.head?.map Receipt.result = some (x.store.sync x.disk).1 := by
  have hact : x.act (.step p) = { x.enter p k with clock := x.clock + 1 } := by
    simp [act, turn, step, h, hfree]
  have hsession : (x.act (.step p)).session = some ⟨k, .copying⟩ := by rw [hact]; rfl
  have hstore : (x.act (.step p)).store = x.store := by rw [hact]; rfl
  have hdisk : (x.act (.step p)).disk = x.disk := by rw [hact]; rfl
  have hplay := play_work hsession
  rwa [hstore, hdisk] at hplay

/-- A call that is made. -/
theorem act_call {n : Nat} {e : Errand} (h : x.post (.client n) = .free) :
    x.act (.call n e) =
      { x.send (.client n) (.busy ⟨⟨.client n, x.clock⟩, e, x.clock⟩ e.phase) with
        clock := x.clock + 1 } := by
  simp [act, turn, ask, h]

theorem post_act_call {n : Nat} {e : Errand} (h : x.post (.client n) = .free) :
    (x.act (.call n e)).post (.client n) = .busy ⟨⟨.client n, x.clock⟩, e, x.clock⟩ e.phase := by
  rw [act_call h]
  exact post_send_self ..

/-- The ticker goes when it has been told to, and the desk is waited for. -/
theorem play_join {p : Party} {k : Ticket} (h : x.post p = .busy k .joining) (hp : p ≠ .ticker)
    (hticker : x.post .ticker = .free) (hticking : x.store.ticking = false) :
    let y := x.play [.retire, .step p]
    y.store = x.store ∧ y.disk = x.disk ∧ y.session = x.session ∧ y.post p = .busy k .waiting := by
  have hretire : x.act .retire = { x.send .ticker .gone with clock := x.clock + 1 } := by
    simp [act, turn, retire, hticker, hticking]
  have hgone : (x.act .retire).post .ticker = .gone := by
    simp only [hretire, post_send_self]
  have hbusy : (x.act .retire).post p = .busy k .joining := by
    simp only [hretire, post_send_ne x .gone hp, h]
  have hsame : (x.act .retire).store = x.store ∧ (x.act .retire).disk = x.disk ∧
      (x.act .retire).session = x.session := by
    rw [hretire]
    exact ⟨rfl, rfl, rfl⟩
  rw [play_cons]
  generalize x.act .retire = z at hgone hbusy hsame ⊢
  have hstep : z.act (.step p) = { z.send p (.busy k .waiting) with clock := z.clock + 1 } := by
    simp [act, turn, step, hbusy, hgone]
  rw [play_cons, hstep]
  exact ⟨hsame.1, hsame.2.1, hsame.2.2, post_send_self ..⟩

/-- A snapshot that someone asks for. -/
theorem play_ask {u : Turn} {p : Party} (hu : x.turn u = x.ask p .flush) (hpost : x.post p = .free)
    (hfree : x.session = none) :
    let y := x.play (u :: visit p)
    y.store = x.store ∧ y.disk = (x.store.sync x.disk).2 ∧
      y.receipts.head?.map Receipt.result = some (x.store.sync x.disk).1 := by
  have hact : x.act u = { x.send p (.busy ⟨⟨p, x.clock⟩, .flush, x.clock⟩ .waiting) with
      clock := x.clock + 1 } := by
    simp [act, hu, ask, hpost, Errand.phase]
  have hwaits : (x.act u).post p = .busy ⟨⟨p, x.clock⟩, .flush, x.clock⟩ .waiting := by
    rw [hact]
    exact post_send_self ..
  obtain ⟨hstore, hdisk, -, hresult⟩ := play_visit hwaits (by rw [hact]; exact hfree)
  rw [hact] at hstore hdisk hresult
  rw [play_cons, hact]
  exact ⟨hstore, hdisk, hresult⟩

/-- **The ticker's snapshot** is the one that is made at intervals. -/
theorem play_tick (hpost : x.post .ticker = .free) (hfree : x.session = none) {time : Nat}
    (hdue : x.store.nextTick time = some (time + 1)) :
    (x.play (.tick :: visit .ticker)).disk = x.store.tick (time + 1) x.disk := by
  rw [(play_ask rfl hpost hfree).2.1, FileStore.tick, if_pos hdue]

variable (n : Nat) (hpost : x.post (.client n) = .free) (hfree : x.session = none)

include hpost hfree

/-- **A change without others between its steps** is the one of a file store. -/
theorem play_change (ms : List Metric) :
    let y := x.play (.call n (.change ms) :: (List.replicate ms.length (.step (.client n)) ++
      .step (.client n) :: if x.store.writesThrough then visit (.client n) else []))
    (x.store.batchUpdate ms x.disk).2 = (y.store, y.disk) ∧
      y.receipts.head?.map Receipt.result = some (x.store.batchUpdate ms x.disk).1 := by
  have hcall := act_call (e := .change ms) hpost
  obtain ⟨hstore, hdisk, hsession, k, hdone⟩ := play_applying (post_act_call (e := .change ms) hpost)
  rw [play_cons, play_append, play_cons]
  -- everything is applied, and what is left depends on the mode
  generalize (x.act (.call n (.change ms))).play (List.replicate ms.length (.step (.client n))) = z
    at hstore hdisk hsession hdone ⊢
  replace hstore : z.store = { x.store with memory := x.store.memory.applyAll ms } :=
    hstore.trans (by rw [hcall]; rfl)
  replace hdisk : z.disk = x.disk := hdisk.trans (by rw [hcall]; rfl)
  replace hsession : z.session = none := hsession.trans (by rw [hcall]; exact hfree)
  have hmode : z.store.writesThrough = x.store.writesThrough := by rw [hstore]; rfl
  simp only [FileStore.batchUpdate, FileStore.afterChange, ← hstore, ← hdisk, hmode]
  split
  · rename_i hthrough
    have hact : z.act (.step (.client n)) =
        { z.send (.client n) (.busy k .waiting) with clock := z.clock + 1 } := by
      simp [act, turn, step, hdone, hmode, hthrough]
    obtain ⟨hstore', hdisk', -, hresult⟩ := play_visit (x := z.act (.step (.client n)))
      (p := .client n) (k := k) (by rw [hact]; exact post_send_self ..)
      (by rw [hact]; exact hsession)
    rw [hact] at hstore' hdisk' hresult ⊢
    exact ⟨Prod.ext hstore'.symm hdisk'.symm, hresult⟩
  · rename_i hthrough
    have hact : z.act (.step (.client n)) =
        { z.answer k none (.ok ()) with clock := z.clock + 1 } := by
      simp [act, turn, step, hdone, hmode, hthrough]
    rw [hact]
    exact ⟨rfl, rfl⟩

/-- And so is a snapshot that is asked for, -/
theorem play_flush :
    let y := x.play (.call n .flush :: visit (.client n))
    y.store = x.store ∧ y.disk = (x.store.sync x.disk).2 ∧
      y.receipts.head?.map Receipt.result = some (x.store.sync x.disk).1 :=
  play_ask rfl hpost hfree

/-- and the end of the snapshots at intervals. -/
theorem play_stop (hticker : x.post .ticker = if x.store.ticking then .free else .gone) :
    let y := x.play (.call n .stop :: .step (.client n) ::
      if x.store.ticking then [.retire, .step (.client n)] ++ visit (.client n) else [])
    (x.store.stop x.disk).2 = (y.store, y.disk) ∧
      y.receipts.head?.map Receipt.result = some (x.store.stop x.disk).1 := by
  have hne : Party.ticker ≠ .client n := nofun
  have hbusy := post_act_call (e := .stop) hpost
  have hsame : (x.act (.call n .stop)).store = x.store ∧ (x.act (.call n .stop)).disk = x.disk ∧
      (x.act (.call n .stop)).session = none ∧
      (x.act (.call n .stop)).post .ticker = x.post .ticker := by
    rw [act_call hpost]
    exact ⟨rfl, rfl, hfree, by simp only [post_send_ne x _ hne]⟩
  rw [play_cons]
  generalize x.act (.call n .stop) = z at hbusy hsame ⊢
  obtain ⟨hstore, hdisk, hsession, hsame⟩ := hsame
  rw [← hsame] at hticker
  rw [← hstore] at hticker ⊢
  rw [← hdisk]
  by_cases hticking : z.store.ticking = true
  · -- the ticker is told to go, goes, and then there is a last snapshot
    rw [if_pos hticking] at hticker ⊢
    have hact : z.act (.step (.client n)) =
        { z.signal (.client n) ⟨⟨.client n, x.clock⟩, .stop, x.clock⟩ with clock := z.clock + 1 } := by
      simp [act, turn, step, hbusy, Errand.phase, hticking]
    have hjoining : (z.act (.step (.client n))).post (.client n) =
        .busy ⟨⟨.client n, x.clock⟩, .stop, x.clock⟩ .joining := by
      simp only [hact, signal, post_send_self]
    have hidle : (z.act (.step (.client n))).post .ticker = .free := by
      simp only [hact, signal, post_send_ne z _ hne, hticker]
    have hsignal : (z.act (.step (.client n))).store = { z.store with ticking := false } ∧
        (z.act (.step (.client n))).disk = z.disk ∧ (z.act (.step (.client n))).session = none := by
      rw [hact]
      exact ⟨rfl, rfl, hsession⟩
    rw [play_cons, play_append]
    generalize z.act (.step (.client n)) = w at hjoining hidle hsignal ⊢
    obtain ⟨hticks, hdisk, hsession⟩ := hsignal
    obtain ⟨hstore, hsame, hfree, hwaits⟩ := play_join hjoining nofun hidle (by rw [hticks])
    obtain ⟨hstore', hdisk', -, hresult⟩ := play_visit hwaits (hfree.trans hsession)
    rw [hstore, hticks] at hstore'
    rw [hstore, hsame, hticks, hdisk] at hdisk' hresult
    rw [FileStore.stop, if_pos hticking]
    exact ⟨Prod.ext hstore'.symm hdisk'.symm, hresult⟩
  · have hact : z.act (.step (.client n)) =
        { z.answer ⟨⟨.client n, x.clock⟩, .stop, x.clock⟩ none (.ok ()) with
          clock := z.clock + 1 } := by
      simp [act, turn, step, hbusy, Errand.phase, hticking]
    rw [if_neg hticking, play_cons, hact, FileStore.stop, if_neg hticking]
    exact ⟨rfl, rfl⟩

end Shared

end Telemetry
