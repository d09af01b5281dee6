import Mathlib
import Telemetry.Proofs.Landing
import Telemetry.Proofs.Readability

/-!
# What was acknowledged stays

A store that writes a snapshot behind every change answers a change when the snapshot has landed.
The copy behind that snapshot was begun when all metrics of the change were in memory: whoever
waits for the desk has applied everything before (`Post.Sound`), and at the desk the first map is
copied later still (`Session.Sound`). From then on whatever the file holds was copied no earlier,
since snapshots land in order of time. So whenever the program breaks off behind the answer, what
is restored from the file is a copy made behind the change, as long as its levels are finite.

* `FileStore.restored_words_reread`: what a snapshot restores, level by level;
* `Shared.posts_run`, `Shared.sessions_run`, `Shared.receipts_run`: what has been applied for a call
  when it waits for the desk, when it is there, and when it has been answered;
* `Shared.durable`: a change that was answered with success.
-/

namespace Telemetry

open FileStore

/-! ### What is read back -/

namespace NameMap

variable {α β : Type}

/-- A map with its values turned into others. -/
def map (f : α → β) (m : NameMap α) : NameMap β :=
  ⟨m.entries.map fun p => (p.1, f p.2), by rw [Sorted, List.pairwise_map]; exact m.sorted⟩

end NameMap

namespace Memory

/-- A store with every level as it is read back from its own text. -/
def reread (m : Memory) : Memory := ⟨m.gauges.map fun x => x.reread.getD x, m.counters⟩

/-- Gauges that can be read are read back one by one. -/
theorem mapM_reread_gauges {entries : List (String × Binary64)} (hname : ∀ p ∈ entries, p.1 ≠ "")
    (hfinite : ∀ p ∈ entries, p.2.isFinite = true) :
    (metricsOf .gauge entries).mapM Metric.reread =
      .ok (metricsOf .gauge (entries.map fun p => (p.1, p.2.reread.getD p.2))) := by
  induction entries with
  | nil => rfl
  | cons p rest ih =>
    obtain ⟨n, x⟩ := p
    have hn : n ≠ "" := hname _ List.mem_cons_self
    obtain ⟨y, hy⟩ := Option.isSome_iff_exists.1
      (x.isSome_reread.trans (hfinite _ List.mem_cons_self))
    have hrest := ih (fun q hq => hname q (List.mem_cons_of_mem _ hq))
      fun q hq => hfinite q (List.mem_cons_of_mem _ hq)
    have hx : Metric.reread ⟨n, .gauge x, hn⟩ = .ok ⟨n, .gauge y, hn⟩ := by
      simp only [Metric.reread, hy]
    rw [metricsOf_cons .gauge x rest hn, List.map_cons, metricsOf_cons .gauge _ _ hn,
      List.mapM_cons, hx, hrest, hy]
    rfl

/-- And counters come back as they are. -/
theorem mapM_reread_counters (entries : List (String × Int64)) :
    (metricsOf .counter entries).mapM Metric.reread = .ok (metricsOf .counter entries) := by
  have hsame : ∀ m ∈ metricsOf .counter entries, Metric.reread m = .ok m := by
    intro m hm
    obtain ⟨p, -, -, hv⟩ := mem_metricsOf hm
    refine Metric.reread_of_readsBack ?_
    rw [hv]
    trivial
  rw [mapM_of_forall_ok fun m hm => ⟨m, hsame m hm⟩]
  refine congrArg Except.ok ((List.filterMap_congr fun m hm => ?_).trans List.filterMap_some)
  rw [hsame m hm]
  rfl

/-- What a list of metrics describes has names. -/
theorem kept_ofMetrics (ms : List Metric) : (ofMetrics ms).Kept fun _ => True := by
  rw [ofMetrics_eq_foldl]
  suffices h : ∀ s : Memory, s.Kept (fun _ => True) → (ms.foldl put s).Kept fun _ => True from
    h empty kept_empty
  induction ms with
  | nil => exact fun s hs => hs
  | cons m ms ih =>
    intro s hs
    refine ih _ ?_
    obtain ⟨name, value, named⟩ := m
    cases value with
    | gauge x =>
      exact ⟨NameMap.forall_mem_insert hs.gauges_named named, hs.counters_named, fun _ _ => trivial⟩
    | counter n =>
      exact ⟨hs.gauges_named, NameMap.forall_mem_insert hs.counters_named named, fun _ _ => trivial⟩

end Memory

/-- **A snapshot with finite levels restores** every counter, and every level as it is read. -/
theorem FileStore.restored_words_reread {m : Memory} (h : m.Kept fun x => x.isFinite = true) :
    restored (words m) = m.reread := by
  have hread : decodeRecords (words m) = .ok m.reread.snapshot := by
    rw [words, decodeRecords_eq, Memory.snapshot, List.mapM_append,
      Memory.mapM_reread_gauges h.gauges_named h.level, Memory.mapM_reread_counters]
    rfl
  have hkept : m.reread.Kept fun _ => True := by
    refine ⟨fun p hp => ?_, h.counters_named, fun _ _ => trivial⟩
    obtain ⟨q, hq, rfl⟩ := List.mem_map.1 hp
    exact h.gauges_named q hq
  rw [restored, hread]
  exact Memory.ofMetrics_snapshot hkept

/-! ### What has been applied for a call -/

/-- The metrics in a log that were applied for one call. -/
def items (tag : Tag) (log : List (Tag × Metric)) : List Metric :=
  log.filterMap fun e => if e.1 = tag then some e.2 else none

theorem items_append (tag : Tag) (log more : List (Tag × Metric)) :
    items tag (log ++ more) = items tag log ++ items tag more := List.filterMap_append

/-- A call that is not in the log has nothing there. -/
theorem items_eq_nil {tag : Tag} {log : List (Tag × Metric)} (h : ∀ e ∈ log, e.1 ≠ tag) :
    items tag log = [] :=
  List.filterMap_eq_nil_iff.2 fun e he => if_neg (h e he)

/-- Another call's metrics do not count. -/
theorem items_append_ne {tag other : Tag} (h : other ≠ tag) (log : List (Tag × Metric))
    (m : Metric) : items tag (log ++ [(other, m)]) = items tag log := by
  rw [items_append]
  simp [items, h]

theorem items_append_self (tag : Tag) (log : List (Tag × Metric)) (m : Metric) :
    items tag (log ++ [(tag, m)]) = items tag log ++ [m] := by
  rw [items_append]
  simp [items]

/-- **All metrics of a call are in memory** from some instant on, which has come. -/
structure Ticket.Settled (X : Nat → Shared) (t : Nat) (k : Ticket) : Prop where
  /-- The instant has come. -/
  applied_le : k.applied ≤ t
  /-- The log has the metrics of the call then. -/
  items_eq : ∀ ms, k.errand = .change ms → items k.tag (X k.applied).log = ms

theorem Ticket.Settled.mono {X : Nat → Shared} {t u : Nat} {k : Ticket} (h : k.Settled X t)
    (htu : t ≤ u) : k.Settled X u := ⟨h.applied_le.trans htu, h.items_eq⟩

/-- What has been applied for whoever is not at the desk. -/
def Post.Sound (X : Nat → Shared) (t : Nat) (p : Party) : Post → Prop
  | .busy k (.applying rest) =>
    k.tag.party = p ∧ k.tag.instant < t ∧ k.applied ≤ t ∧
      items k.tag (X t).log = items k.tag (X k.applied).log ∧
      ∀ ms, k.errand = .change ms → items k.tag (X k.applied).log ++ rest = ms
  | .busy k _ => k.Settled X t
  | _ => True

/-- Where nothing is left to be applied, everything has been. -/
theorem Post.Sound.settled {X : Nat → Shared} {t : Nat} {p : Party} {k : Ticket} {phase : Phase}
    (h : (Post.busy k phase).Sound X t p) (hrest : ∀ rest, phase = .applying rest → rest = []) :
    k.Settled X t := by
  cases phase with
  | applying rest =>
    obtain rfl := hrest rest rfl
    obtain ⟨-, -, happlied, -, hall⟩ := h
    exact ⟨happlied, fun ms hms => by rw [← hall ms hms, List.append_nil]⟩
  | ending | joining | waiting => exact h

/-- When the first map was copied. -/
def Stage.begun? : Stage → Option Nat
  | .copying => none
  | .halfway g _ => some g
  | .writing c _ | .replacing c _ | .leaving c _ => some c.gauges

/-- **What is copied at the desk** is copied behind the metrics of the call. -/
structure Session.Sound (X : Nat → Shared) (t : Nat) (a : Session) : Prop where
  /-- They have been applied. -/
  settled : a.ticket.Settled X t
  /-- The gauges were copied behind that. -/
  applied_le : ∀ g, a.stage.begun? = some g → a.ticket.applied ≤ g

/-- **What is answered** is answered behind that. -/
structure Receipt.Sound (X : Nat → Shared) (t : Nat) (through : Bool) (r : Receipt) : Prop where
  /-- The metrics have been applied. -/
  settled : r.ticket.Settled X t
  /-- The gauges were copied behind that. -/
  applied_le : ∀ c, r.stamp = some c → r.ticket.applied ≤ c.gauges
  /-- And a change had to wait for a snapshot, if there is to be one behind every change. -/
  stamped : through = true → r.ticket.errand.isChange = true → r.stamp.isSome = true

/-- Others may take turns in which nothing is applied for that call. -/
theorem Post.Sound.succ {X : Nat → Shared} {t : Nat} {p : Party} {post : Post}
    (h : post.Sound X t p)
    (hlog : ∀ tag : Tag, tag.party = p → items tag (X (t + 1)).log = items tag (X t).log) :
    post.Sound X (t + 1) p := by
  cases post with
  | free | inside | gone => trivial
  | busy k phase =>
    cases phase with
    | applying rest =>
      obtain ⟨hp, hinstant, happlied, hitems, hall⟩ := h
      exact ⟨hp, hinstant.trans t.lt_succ_self, happlied.trans t.le_succ,
        (hlog k.tag hp).trans hitems, hall⟩
    | ending | joining | waiting => exact h.mono t.le_succ

namespace Shared

variable {s : FileStore} {d : Disk} {turns : Nat → Turn}

/-- **Whoever waits for the desk has applied everything**, and no two calls are taken for one. -/
theorem posts_run (t : Nat) : (∀ e ∈ (run s d turns t).log, e.1.instant < t) ∧
    ∀ p, ((run s d turns t).post p).Sound (run s d turns) t p := by
  induction t with
  | zero =>
    exact ⟨fun e he => absurd he List.not_mem_nil,
      forall_post_start (fun _ => trivial) (fun _ => trivial) s d⟩
  | succ t ih =>
    obtain ⟨hinstants, hposts⟩ := ih
    obtain ⟨y, hy, heq⟩ := effect_run s d turns t
    have hclock : (run s d turns t).clock = t := clock_run t
    have hlog : (run s d turns (t + 1)).log = y.log := by rw [heq]
    have hold : ∀ e ∈ (run s d turns t).log, e.1.instant < t + 1 :=
      fun e he => (hinstants e he).trans t.lt_succ_self
    -- where nothing is applied, everyone is where they were
    have hquiet (hsame : y.log = (run s d turns t).log) (p : Party) :
        ((run s d turns t).post p).Sound (run s d turns) (t + 1) p :=
      (hposts p).succ fun tag _ => by rw [hlog, hsame]
    have hsend {p : Party} {post : Post} (hsame : y.log = (run s d turns t).log)
        (h : post.Sound (run s d turns) (t + 1) p) :=
      forall_post_send (R := fun q post => post.Sound (run s d turns) (t + 1) q)
        (fun q _ => hquiet hsame q) h
    have hbusy {p : Party} {k : Ticket} {phase : Phase}
        (h : (run s d turns t).post p = .busy k phase) :
        (Post.busy k phase).Sound (run s d turns) t p := h ▸ hposts p
    rw [heq]
    cases hy with
    | idle => exact ⟨hold, hquiet rfl⟩
    | asked e h =>
      refine ⟨hold, hsend rfl ?_⟩
      rw [hclock]
      cases e with
      | change ms =>
        refine ⟨rfl, t.lt_succ_self, t.le_succ, congrArg _ hlog, ?_⟩
        rintro _ ⟨⟩
        -- no earlier call was made at this instant
        rw [items_eq_nil fun e he hc => absurd (hinstants e he) (by rw [hc]; exact lt_irrefl t)]
        rfl
      | flush | stop =>
        refine ⟨t.le_succ, fun ms hms => ?_⟩
        cases hms
    | retired h => exact ⟨hold, hsend rfl trivial⟩
    | @applied p k m rest h =>
      obtain ⟨hp, hinstant, -, hitems, hall⟩ := hbusy h
      have hmore : (run s d turns (t + 1)).log = (run s d turns t).log ++ [(k.tag, m)] := hlog
      refine ⟨?_, forall_post_send (fun q hq => (hposts q).succ fun tag htag => ?_) ?_⟩
      · intro e he
        rcases List.mem_append.1 he with he | he
        · exact hold e he
        · obtain rfl := List.mem_singleton.1 he
          exact hinstant.trans t.lt_succ_self
      · rw [hmore, items_append_ne fun hc => hq (by rw [← htag, ← hc, hp])]
      · rw [hclock]
        refine ⟨hp, hinstant.trans t.lt_succ_self, le_rfl, rfl, fun ms hms => ?_⟩
        rw [hmore, items_append_self, hitems, List.append_assoc]
        exact hall ms hms
    | @queued p k phase h hphase =>
      have hsettled : k.Settled (run s d turns) t := by
        refine (hbusy h).settled ?_
        rcases hphase with ⟨rfl, -⟩ | ⟨rfl, -⟩ <;> rintro _ ⟨⟩
        rfl
      exact ⟨hold, hsend rfl (show Ticket.Settled .. from hsettled.mono t.le_succ)⟩
    | @signalled p k h =>
      have hsettled : k.Settled (run s d turns) t := hbusy h
      exact ⟨hold, hsend rfl (show Ticket.Settled .. from hsettled.mono t.le_succ)⟩
    | excused h => exact ⟨hold, hsend rfl trivial⟩
    | entered h => exact ⟨hold, hsend rfl trivial⟩
    | halved | copied | spilled | wrote | landed | refused => exact ⟨hold, hquiet rfl⟩
    | left => exact ⟨hold, hsend rfl trivial⟩

/-- **Whatever is copied at the desk is copied behind the change.** -/
theorem sessions_run (t : Nat) :
    ∀ a, (run s d turns t).session = some a → a.Sound (run s d turns) t := by
  induction t with
  | zero =>
    intro a ha
    cases ha
  | succ t ih =>
    obtain ⟨y, hy, heq⟩ := effect_run s d turns t
    have hclock : (run s d turns t).clock = t := clock_run t
    -- the same call is at the desk, and its first map was copied when it was
    have hsame {k : Ticket} {a b : Stage} (h : (run s d turns t).session = some ⟨k, a⟩)
        (hbegun : b.begun? = a.begun?) :
        ∀ c, some (⟨k, b⟩ : Session) = some c → c.Sound (run s d turns) (t + 1) := by
      rintro _ ⟨⟩
      obtain ⟨hsettled, happlied⟩ := ih _ h
      exact ⟨hsettled.mono t.le_succ, fun g hg => happlied g (hbegun ▸ hg)⟩
    have hrest (hsession : y.session = (run s d turns t).session) :
        ∀ a, y.session = some a → a.Sound (run s d turns) (t + 1) := by
      intro a ha
      obtain ⟨hsettled, happlied⟩ := ih a (hsession ▸ ha)
      exact ⟨hsettled.mono t.le_succ, happlied⟩
    rw [heq]
    cases hy with
    | idle | asked | retired | applied | queued | signalled | excused | spilled => exact hrest rfl
    | @entered p k h =>
      rintro _ ⟨⟩
      have hsettled : (Post.busy k .waiting).Sound (run s d turns) t p := h ▸ (posts_run t).2 p
      refine ⟨Ticket.Settled.mono hsettled t.le_succ, fun g hg => ?_⟩
      cases hg
    | halved h =>
      rintro _ ⟨⟩
      obtain ⟨hsettled, -⟩ := ih _ h
      rw [hclock]
      refine ⟨hsettled.mono t.le_succ, ?_⟩
      rintro _ ⟨⟩
      exact hsettled.applied_le
    | copied h | wrote h | landed h => exact hsame h rfl
    | refused e h =>
      rcases h with h | h
      · exact hsame h rfl
      · exact hsame h rfl
    | left =>
      intro a ha
      cases ha

/-- **Whatever is answered is answered behind the change**, and behind a snapshot of it if there is
to be one. -/
theorem receipts_run (t : Nat) : ∀ r ∈ (run s d turns t).receipts,
    r.Sound (run s d turns) t s.writesThrough := by
  induction t with
  | zero => exact fun r hr => absurd hr List.not_mem_nil
  | succ t ih =>
    obtain ⟨y, hy, heq⟩ := effect_run s d turns t
    have hold : ∀ r ∈ (run s d turns t).receipts,
        r.Sound (run s d turns) (t + 1) s.writesThrough :=
      fun r hr => ⟨(ih r hr).settled.mono t.le_succ, (ih r hr).applied_le, (ih r hr).stamped⟩
    have hmode : (run s d turns t).store.writesThrough = s.writesThrough := by
      simp [writesThrough]
    rw [heq]
    rcases hy.receipts_eq with hreceipts | ⟨p, k, phase, hpost, hphase, hreceipts⟩ |
      ⟨k, c, result, hsession, -, hreceipts⟩
    · exact hreceipts ▸ hold
    · have hsound : (Post.busy k phase).Sound (run s d turns) t p := hpost ▸ (posts_run t).2 p
      have hsettled : k.Settled (run s d turns) t := by
        refine hsound.settled ?_
        rcases hphase with ⟨rfl, -⟩ | rfl <;> rintro _ ⟨⟩
        rfl
      have hfits : (Post.busy k phase).Fits s.writesThrough := hpost ▸ (fits_run t).1 p
      simp only [hreceipts]
      refine List.forall_mem_cons.2
        ⟨⟨hsettled.mono t.le_succ, fun c hc => ?_, fun hthrough hchange => ?_⟩, hold⟩
      · cases hc
      · -- no change is excused where there is to be a snapshot behind each of them
        rcases hphase with ⟨-, hinterval⟩ | rfl
        · exact absurd (hmode.symm.trans hinterval) (by simp [hthrough])
        · exact absurd ((hfits : _ = false).symm.trans hchange) Bool.false_ne_true
    · obtain ⟨hsettled, happlied⟩ := sessions_run t _ hsession
      simp only [hreceipts]
      refine List.forall_mem_cons.2 ⟨⟨hsettled.mono t.le_succ, ?_, fun _ _ => rfl⟩, hold⟩
      rintro _ ⟨⟩
      exact happlied _ rfl

/-! ### What is restored -/

/-- Every entry has a name, at every instant. -/
theorem kept_run (h : s.memory.Kept fun _ => True) (t : Nat) :
    (run s d turns t).store.memory.Kept fun _ => True := by
  rw [memory_run]
  exact h.applyAll fun m _ => by cases m.value <;> trivial

/-- A store that was opened has names for all its entries. -/
theorem kept_openAt {settings : FileSettings} {time : Nat} {before : Disk}
    (h : FileStore.openAt settings time before = (.ok s, d)) : s.memory.Kept fun _ => True := by
  have hrestored (content : Octets) : (restored content).Kept fun _ => True := by
    unfold restored
    split
    · exact Memory.kept_ofMetrics _
    · exact Memory.kept_empty
  have hrestoredAt (e : Disk) : (restoredAt settings.path e).Kept fun _ => True := by
    unfold restoredAt
    split
    · exact hrestored _
    · exact Memory.kept_empty
  unfold FileStore.openAt at h
  split at h
  · cases h
  · obtain ⟨hs, rfl⟩ := Prod.mk.inj h
    cases hs
    show (if settings.restore = true then _ else _ : Memory).Kept _
    split
    · exact hrestoredAt _
    · exact Memory.kept_empty

/-- **What landed for a call stays behind it**: whatever the file holds later was copied no
earlier. -/
theorem exists_landed_behind {c : Stamp} {t u : Nat} (hc : c ∈ (run s d turns t).landed)
    (htu : t ≤ u) : ∃ c' older, (run s d turns u).landed = c' :: older ∧ c.gauges ≤ c'.gauges := by
  have hmem : c ∈ (run s d turns u).landed := (landed_mono htu).subset hc
  cases hlanded : (run s d turns u).landed with
  | nil =>
    rw [hlanded] at hmem
    cases hmem
  | cons c' older =>
    rw [hlanded] at hmem
    refine ⟨c', older, rfl, ?_⟩
    rcases List.mem_cons.1 hmem with rfl | hold
    · exact le_rfl
    · have hordered : (run s d turns u).landed.Pairwise _ := ordered_run u
      rw [hlanded] at hordered
      have hlater := (List.pairwise_cons.1 hordered).1 c hold
      have hfirst := (taken_run t c hc).gauges_lt
      omega

end Shared

/-- **A change is durable** at some instant of a run: the file holds a copy that was made behind
it, and that is what is restored if the program breaks off then. -/
structure Durable (settings : FileSettings) (s : FileStore) (X : Nat → Shared) (k : Ticket)
    (ms : List Metric) (u : Nat) : Prop where
  /-- At some instant all of its metrics have been applied, -/
  applied : items k.tag (X k.applied).log = ms ∧
    (X k.applied).store.memory = s.memory.applyAll ((X k.applied).log.map Prod.snd)
  /-- and they stay in memory, with what is applied later on top of them. -/
  kept : ∀ i, k.applied ≤ i → ∃ more, (X i).log = (X k.applied).log ++ more ∧
    (X i).store.memory = (X k.applied).store.memory.applyAll (more.map Prod.snd)
  /-- The file holds the words for a copy that was made since, and these restore the copy. -/
  held : ∃ c : Stamp, k.applied ≤ c.gauges ∧ c.Before u ∧
    (X u).disk.read settings.path = .ok (words (copyAt X c)) ∧
    ((∀ p ∈ (X c.gauges).store.memory.gauges.entries, p.2.isFinite = true) →
      ∀ interval time, FileStore.openAt ⟨settings.path, interval, true⟩ time (X u).disk =
        (.ok ⟨settings.path, (copyAt X c).reread, interval, time, interval ≠ 0⟩, (X u).disk))

namespace Shared

variable {s : FileStore} {d : Disk} {turns : Nat → Turn}

/-- **What was acknowledged stays.** A change that was answered with success, by a store that makes
a snapshot behind every change, is durable from then on. -/
theorem durable {settings : FileSettings} {time : Nat} {before : Disk}
    (h : FileStore.openAt settings time before = (.ok s, d)) (hthrough : settings.interval = 0)
    (turns : Nat → Turn) {t u : Nat} (htu : t ≤ u) {r : Receipt}
    (hr : r ∈ (run s d turns t).receipts) (hok : r.result = .ok ()) {ms : List Metric}
    (hms : r.ticket.errand = .change ms) :
    r.instant ≤ t ∧ Durable settings s (run s d turns) r.ticket ms u := by
  obtain ⟨hpath, hinterval, hmade⟩ := openAt_eq_ok h
  have hmode : s.writesThrough = true := by rw [writesThrough, hinterval, hthrough]; rfl
  obtain ⟨hsettled, hstamp, hstamped⟩ := receipts_run t r hr
  obtain ⟨hinstant, hanswered⟩ := answered_run t r hr
  -- the snapshot that was made for it
  obtain ⟨c, hc⟩ := Option.isSome_iff_exists.1 (hstamped hmode (by rw [hms]; rfl))
  obtain ⟨-, houtcome⟩ := hanswered c hc
  have hlanded : c ∈ (run s d turns r.instant).landed := by
    rw [houtcome, hok]
    exact List.mem_cons_self
  -- and the last one at the instant that is asked about
  obtain ⟨c', older, hlast, hlater⟩ := exists_landed_behind hlanded (hinstant.trans htu)
  refine ⟨hinstant, ⟨hsettled.items_eq ms hms, memory_run _⟩, fun i hi => ?_, c',
    (hstamp c hc).trans hlater, taken_run u c' (by rw [hlast]; exact List.mem_cons_self), ?_,
    fun hfinite interval time => ?_⟩
  · obtain ⟨more, hmore⟩ : (run s d turns r.ticket.applied).log <+: (run s d turns i).log :=
      log_mono hi
    refine ⟨more, hmore.symm, ?_⟩
    rw [memory_run i, memory_run r.ticket.applied, ← hmore, List.map_append,
      Memory.applyAll_append]
  · rw [← hpath]
    exact read_run hlast
  · have hkept : (copyAt (run s d turns) c').Kept fun x => x.isFinite = true :=
      ⟨(kept_run (kept_openAt h) c'.gauges).gauges_named,
        (kept_run (kept_openAt h) c'.counters).counters_named, hfinite⟩
    have hread := read_run hlast
    rw [hpath] at hread
    rw [FileStore.openAt, makeParent_again hmade (alike_run u).1]
    simp only [if_true, restoredAt, hread, restored_words_reread hkept]

/-- The answer that the second of two clients gets, whose snapshot lands. -/
def secondPages : Receipt :=
  ⟨⟨⟨.client 1, 1⟩, .change [pages 3], 7⟩, some ⟨13, 14⟩, .ok (), 18⟩

/-- Behind that answer the program breaks off, and is started again with all five pages. -/
theorem durable_refusedThenLanded :
    let X := run throughStore (Disk.blank ["w"]) refusedThenLanded
    FileStore.openAt throughSettings 0 (Disk.blank ["w"]) =
        (.ok throughStore, Disk.blank ["w"]) ∧
      throughSettings.interval = 0 ∧ 18 ≤ 20 ∧ secondPages ∈ (X 18).receipts ∧
      secondPages.result = .ok () ∧ secondPages.ticket.errand = .change [pages 3] ∧
      ∃ f, FileStore.openAt ⟨"m", 0, true⟩ 40 (X 20).disk = (.ok f, (X 20).disk) ∧
        f.memory.counters.lookup "pages" = some 5 := by
  intro X
  have hopen : FileStore.openAt throughSettings 0 (Disk.blank ["w"]) =
      (.ok throughStore, Disk.blank ["w"]) := rfl
  have hanswer : secondPages ∈ (X 18).receipts :=
    List.mem_of_mem_head? (show (X 18).receipts.head? = some secondPages from rfl)
  obtain ⟨-, hdurable⟩ :=
    durable hopen rfl refusedThenLanded (show 18 ≤ 20 by decide) hanswer rfl rfl
  obtain ⟨c, hbehind, hbefore, -, hrestored⟩ := hdurable.held
  -- from the seventh turn on there are five pages and no gauges
  have hpages : ∀ i < 20, 7 ≤ i → (X i).store.memory.gauges.entries = [] ∧
      (X i).store.memory.counters.lookup "pages" = some 5 := by decide +kernel
  have hgauges : 7 ≤ c.gauges := hbehind
  have hcounters := hbefore.counters_lt
  have hordered := hbefore.gauges_lt
  refine ⟨hopen, rfl, by decide, hanswer, rfl, rfl, _, hrestored ?_ 0 40, ?_⟩
  · rw [(hpages c.gauges (by omega) hgauges).1]
    exact fun p hp => absurd hp List.not_mem_nil
  · exact (hpages c.counters (by omega) (by omega)).2

end Shared

end Telemetry
