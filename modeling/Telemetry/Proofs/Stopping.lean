import Mathlib
import Telemetry.Proofs.Durability

/-!
# What is left behind a stop

A store that makes snapshots at intervals is stopped in three steps: the ticker is told to go, it
is waited for, with the snapshot that it may be making, and then there is a last snapshot. Only one
stop does this, the first one to find the ticker at work; any other one finds that nothing is left
to be told, and is answered at once.

So behind the **last snapshot** the ticker has gone for good (`Shared.gone_mono`), and if it landed
the file holds a copy that was begun behind the beginning of that stop. If nothing has been applied
since anyone began a stop, that copy is all there is in memory, whatever lands later. A stop that
found nothing left to be told may rely on this if the other one has been answered with success
(`Shared.exists_last`). While that one is under way the ticker may still write, and if it failed the
file may be older than the metrics in memory: any other stop is answered with success all the same.

* `Shared.Seated`, `Shared.seated_run`: everyone's call is their own;
* `Post.Stops`, `Shared.stops_run`: how far a stop has come;
* `Shared.hasStopper_run`: who told the ticker to go;
* `Shared.stopped`: what is left behind a stop.
-/

namespace Telemetry

open FileStore

/-! ### Where everyone is -/

/-- A call is under way where it was made. -/
def Post.Own (p : Party) : Post → Prop
  | .busy k _ => k.tag.party = p
  | _ => True

namespace Shared

/-- **Everyone's call is their own**, and at the desk is whoever is said to be there. -/
structure Seated (x : Shared) : Prop where
  /-- A call is under way where it was made. -/
  own : ∀ p, (x.post p).Own p
  /-- Whoever's snapshot is made is at the desk. -/
  inside : ∀ a, x.session = some a → x.post a.ticket.tag.party = .inside

variable {x y : Shared}

/-- Whoever is somewhere stays there when someone is sent elsewhere who is not. -/
theorem post_send_of_ne {p q : Party} {post there : Post} (hq : x.post q = there)
    (hp : x.post p ≠ there) : (x.send p post).post q = there := by
  rw [post_send_ne x post fun hc => hp (by rw [← hc, hq]), hq]

/-- Whoever has a call under way made it. -/
theorem Seated.party_eq (hx : x.Seated) {p : Party} {k : Ticket} {phase : Phase}
    (h : x.post p = .busy k phase) : k.tag.party = p := by
  have hown := hx.own p
  rw [h] at hown
  exact hown

theorem Seated.effect (hx : x.Seated) (h : Effect x y) : y.Seated := by
  have hown {p : Party} {post : Post} (hpost : post.Own p) :=
    forall_post_send (R := fun q post => post.Own q) (x := x) (fun q _ => hx.own q) hpost
  have hinside {p : Party} (hp : x.post p ≠ .inside) (post : Post) :
      ∀ a, x.session = some a → (x.send p post).post a.ticket.tag.party = .inside :=
    fun a ha => post_send_of_ne (hx.inside a ha) hp
  have hbusy {p : Party} {k : Ticket} {phase : Phase} (h : x.post p = .busy k phase) :
      x.post p ≠ .inside := by
    rw [h]
    exact nofun
  have hsame {k : Ticket} {a b : Stage} (h : x.session = some ⟨k, a⟩) :
      ∀ c, some (⟨k, b⟩ : Session) = some c → x.post c.ticket.tag.party = .inside := by
    rintro _ ⟨⟩
    exact hx.inside ⟨k, a⟩ h
  cases h with
  | idle | spilled => exact ⟨hx.own, hx.inside⟩
  | asked e h => exact ⟨hown rfl, hinside (by rw [h]; exact nofun) _⟩
  | retired h => exact ⟨hown trivial, hinside (by rw [h]; exact nofun) _⟩
  | applied h =>
    have hparty := hx.party_eq h
    exact ⟨hown hparty, hinside (hbusy h) _⟩
  | queued h | signalled h =>
    have hparty := hx.party_eq h
    exact ⟨hown hparty, hinside (hbusy h) _⟩
  | excused h =>
    obtain rfl := hx.party_eq h
    exact ⟨hown trivial, hinside (hbusy h) _⟩
  | entered h =>
    refine ⟨hown trivial, ?_⟩
    rintro _ ⟨⟩
    rw [hx.party_eq h]
    exact post_send_self ..
  | halved h | copied h | wrote h | landed h => exact ⟨hx.own, hsame h⟩
  | refused e h => exact ⟨hx.own, h.elim hsame hsame⟩
  | left => exact ⟨hown trivial, nofun⟩

/-- A ticker that has gone does not come back. -/
theorem Effect.gone (h : Effect x y) (hx : x.Seated) (hgone : x.post .ticker = .gone) :
    y.post .ticker = .gone := by
  have hsend {p : Party} (hp : x.post p ≠ .gone) (post : Post) :
      (x.send p post).post .ticker = .gone := post_send_of_ne hgone hp
  have hbusy {p : Party} {k : Ticket} {phase : Phase} (h : x.post p = .busy k phase) :
      x.post p ≠ .gone := by
    rw [h]
    exact nofun
  cases h with
  | idle | halved | copied | spilled | wrote | landed | refused => exact hgone
  | asked e h => exact hsend (by rw [h]; exact nofun) _
  | retired h => exact hsend (by rw [h]; exact nofun) _
  | applied h | queued h | signalled h | entered h => exact hsend (hbusy h) _
  | excused h => exact hsend (by rw [hx.party_eq h]; exact hbusy h) _
  | left h => exact hsend (by rw [hx.inside _ h]; exact nofun) _

/-- Who asks was free, and works on what was asked for from then on. -/
theorem eq_of_ask {p q : Party} {e : Errand} {k : Ticket} {phase : Phase} (hfree : x.post p = .free)
    (h : (x.ask q e).post p = .busy k phase) : p = q ∧ k.errand = e := by
  unfold ask at h
  split at h
  · by_cases hq : p = q
    · subst hq
      cases (post_send_self ..).symm.trans h
      exact ⟨rfl, rfl⟩
    · cases (hfree.symm.trans (post_send_ne x _ hq).symm).trans h
  · cases hfree.symm.trans h

/-- A step of someone who is not at the desk leaves everyone else alone. -/
theorem Seated.free_step (hx : x.Seated) {p : Party} (hfree : x.post p = .free) (q : Party) :
    (x.step q).post p = .free := by
  have hstays {post : Post} {k : Ticket} {phase : Phase} (h : x.post q = .busy k phase) :
      (x.send q post).post p = .free :=
    post_send_of_ne hfree (by rw [h]; exact nofun)
  unfold step
  split
  · rename_i h
    exact hstays h
  · rename_i h
    split
    · exact hstays h
    · obtain rfl := hx.party_eq h
      exact hstays h
  · rename_i h
    split
    · exact hstays h
    · obtain rfl := hx.party_eq h
      exact hstays h
  · rename_i h
    split
    · exact hstays h
    · exact hfree
  · rename_i h
    split
    · exact hstays h
    · exact hfree
  · exact hfree

/-- A step at the desk leaves everyone alone who is not there. -/
theorem Seated.free_work (hx : x.Seated) {p : Party} (hfree : x.post p = .free) :
    x.work.post p = .free := by
  unfold work
  split
  · exact hfree
  · exact hfree
  · exact hfree
  · split <;> exact hfree
  · split <;> exact hfree
  · rename_i h
    exact post_send_of_ne hfree (by rw [hx.inside _ h]; exact nofun)

/-- **Only who calls begins to work**: a client, or the ticker for a snapshot. -/
theorem Seated.call_of_busy (hx : x.Seated) {u : Turn} {p : Party} {k : Ticket} {phase : Phase}
    (hfree : x.post p = .free) (hbusy : (x.turn u).post p = .busy k phase) :
    (∃ n, p = .client n ∧ u = .call n k.errand) ∨ k.errand = .flush := by
  cases u with
  | call n e =>
    obtain ⟨rfl, rfl⟩ := eq_of_ask hfree hbusy
    exact .inl ⟨n, rfl, rfl⟩
  | tick => exact .inr (eq_of_ask hfree hbusy).2
  | retire =>
    simp only [turn, retire] at hbusy
    split at hbusy
    · split at hbusy
      · cases hfree.symm.trans hbusy
      · by_cases hp : p = .ticker
        · subst hp
          cases (post_send_self x .ticker .gone).symm.trans hbusy
        · cases (hfree.symm.trans (post_send_ne x _ hp).symm).trans hbusy
    · cases hfree.symm.trans hbusy
  | step q => cases (hx.free_step hfree q).symm.trans hbusy
  | work => cases (hx.free_work hfree).symm.trans hbusy
  | spill n =>
    simp only [turn, spill] at hbusy
    split at hbusy
    · split at hbusy <;> cases hfree.symm.trans hbusy
    · cases hfree.symm.trans hbusy
  | fail e =>
    simp only [turn, fail] at hbusy
    split at hbusy <;> cases hfree.symm.trans hbusy

variable {s : FileStore} {d : Disk} {turns : Nat → Turn}

/-- Everyone's call is their own at every instant. -/
theorem seated_run (t : Nat) : (run s d turns t).Seated := by
  induction t with
  | zero =>
    exact ⟨forall_post_start (R := fun p post => post.Own p) (fun _ => trivial) (fun _ => trivial)
      s d, nofun⟩
  | succ t ih =>
    obtain ⟨y, hy, heq⟩ := effect_run s d turns t
    obtain ⟨hown, hinside⟩ := ih.effect hy
    rw [heq]
    exact ⟨hown, hinside⟩

theorem gone_succ {t : Nat} (h : (run s d turns t).post .ticker = .gone) :
    (run s d turns (t + 1)).post .ticker = .gone := by
  obtain ⟨y, hy, heq⟩ := effect_run s d turns t
  rw [heq]
  exact hy.gone (seated_run t) h

/-- **The ticker goes for good.** -/
theorem gone_mono {i t : Nat} (h : i ≤ t) (hgone : (run s d turns i).post .ticker = .gone) :
    (run s d turns t).post .ticker = .gone := by
  induction h with
  | refl => exact hgone
  | step _ ih => exact gone_succ ih

/-- And then no snapshot is made for it. -/
theorem party_ne_of_gone {t : Nat} (h : (run s d turns t).post .ticker = .gone) {a : Session}
    (ha : (run s d turns t).session = some a) : a.ticket.tag.party ≠ .ticker := by
  intro hparty
  have hinside := (seated_run t).inside a ha
  rw [hparty, h] at hinside
  cases hinside

end Shared

/-! ### How far a stop has come -/

/-- **A stop begins** at some instant: a client who is free calls for one. -/
def BeginsStop (X : Nat → Shared) (turns : Nat → Turn) (i : Nat) : Prop :=
  ∃ n, (X i).post (.client n) = .free ∧ turns i = .call n .stop

/-- A stop for which a snapshot is made began at some instant, and the ticker has gone. -/
def Ticket.EndsTicks (X : Nat → Shared) (turns : Nat → Turn) (t : Nat) (k : Ticket) : Prop :=
  k.errand = .stop → BeginsStop X turns k.applied ∧ (X t).post .ticker = .gone

/-- **How far a stop has come** that is not at the desk. -/
def Post.Stops (X : Nat → Shared) (turns : Nat → Turn) (t : Nat) : Post → Prop
  | .busy k (.applying _) => k.errand ≠ .stop
  | .busy k .ending | .busy k .joining => k.errand = .stop ∧ BeginsStop X turns k.applied
  | .busy k .waiting => k.EndsTicks X turns t
  | _ => True

namespace Shared

variable {s : FileStore} {d : Disk} {turns : Nat → Turn}

theorem endsTicks_succ {t : Nat} {k : Ticket} (h : k.EndsTicks (run s d turns) turns t) :
    k.EndsTicks (run s d turns) turns (t + 1) :=
  fun hstop => ⟨(h hstop).1, gone_succ (h hstop).2⟩

/-- **A stop waits for the desk when the ticker has gone.** -/
theorem stops_run (t : Nat) : (∀ p, ((run s d turns t).post p).Stops (run s d turns) turns t) ∧
    ∀ a, (run s d turns t).session = some a → a.ticket.EndsTicks (run s d turns) turns t := by
  induction t with
  | zero => exact ⟨forall_post_start (fun _ => trivial) (fun _ => trivial) s d, nofun⟩
  | succ t ih =>
    obtain ⟨y, hy, heq⟩ := effect_run s d turns t
    have hclock : (run s d turns t).clock = t := clock_run t
    have hposts (p : Party) : ((run s d turns t).post p).Stops (run s d turns) turns (t + 1) := by
      have hp := ih.1 p
      match (run s d turns t).post p, hp with
      | .free, _ | .inside, _ | .gone, _ => trivial
      | .busy k (.applying _), hp | .busy k .ending, hp | .busy k .joining, hp => exact hp
      | .busy k .waiting, hp => exact endsTicks_succ hp
    have hsession : ∀ a, (run s d turns t).session = some a →
        a.ticket.EndsTicks (run s d turns) turns (t + 1) := fun a ha => endsTicks_succ (ih.2 a ha)
    have hbusy {p : Party} {k : Ticket} {phase : Phase}
        (h : (run s d turns t).post p = .busy k phase) :
        (Post.busy k phase).Stops (run s d turns) turns (t + 1) := h ▸ hposts p
    have hsend {p : Party} {post : Post} (h : post.Stops (run s d turns) turns (t + 1)) :=
      forall_post_send (R := fun _ post => post.Stops (run s d turns) turns (t + 1)) (p := p)
        (fun q _ => hposts q) h
    -- the same call is at the desk
    have hsame {k : Ticket} {a b : Stage} (h : (run s d turns t).session = some ⟨k, a⟩) :
        ∀ c, some (⟨k, b⟩ : Session) = some c →
          c.ticket.EndsTicks (run s d turns) turns (t + 1) := by
      rintro _ ⟨⟩
      exact hsession ⟨k, a⟩ h
    have hposted : (run s d turns (t + 1)).post = y.post := by rw [heq]
    rw [heq]
    cases hy with
    | idle => exact ⟨hposts, hsession⟩
    | @asked p e h =>
      refine ⟨hsend ?_, hsession⟩
      cases e with
      | change ms => exact nofun
      | flush => exact nofun
      | stop =>
        have hbusy : ((run s d turns t).turn (turns t)).post p =
            .busy ⟨⟨p, (run s d turns t).clock⟩, .stop, (run s d turns t).clock⟩ .ending :=
          (congrFun hposted p).trans (post_send_self ..)
        obtain ⟨n, rfl, hturn⟩ | hflush := (seated_run t).call_of_busy h hbusy
        · have hbegun : BeginsStop (run s d turns) turns t := ⟨n, h, hturn⟩
          rw [← hclock] at hbegun
          exact ⟨rfl, hbegun⟩
        · cases hflush
    | retired h => exact ⟨hsend trivial, hsession⟩
    | applied h =>
      have hchange := hbusy h
      exact ⟨hsend hchange, hsession⟩
    | queued h hphase =>
      refine ⟨hsend fun hstop => ?_, hsession⟩
      rcases hphase with ⟨rfl, -⟩ | ⟨rfl, hgone⟩
      · exact absurd hstop (hbusy h)
      · exact ⟨(hbusy h).2, gone_succ hgone⟩
    | signalled h =>
      have hstop := hbusy h
      exact ⟨hsend hstop, hsession⟩
    | excused h => exact ⟨hsend trivial, hsession⟩
    | entered h =>
      refine ⟨hsend trivial, ?_⟩
      rintro _ ⟨⟩
      exact hbusy h
    | halved h | copied h | wrote h | landed h => exact ⟨hposts, hsame h⟩
    | spilled => exact ⟨hposts, hsession⟩
    | refused e h => exact ⟨hposts, h.elim hsame hsame⟩
    | left => exact ⟨hsend trivial, nofun⟩

/-- **What a stop says when it is answered**: without a snapshot that the ticker has been told to
go, and with one that it has gone. -/
theorem stopped_receipts_run (t : Nat) : ∀ r ∈ (run s d turns t).receipts,
    r.ticket.errand = .stop →
      (r.stamp = none → (run s d turns r.instant).store.ticking = false) ∧
      (r.stamp.isSome = true → r.ticket.EndsTicks (run s d turns) turns r.instant) := by
  induction t with
  | zero => exact fun r hr => absurd hr List.not_mem_nil
  | succ t ih =>
    obtain ⟨y, hy, heq⟩ := effect_run s d turns t
    have hticking : (run s d turns (t + 1)).store.ticking = y.store.ticking := by rw [heq]
    rw [heq]
    cases hy with
    | @excused p k phase h hphase =>
      refine List.forall_mem_cons.2 ⟨fun hstop => ⟨fun _ => ?_, nofun⟩, ih⟩
      simp only [clock_run, hticking]
      rcases hphase with ⟨rfl, -⟩ | ⟨-, hticking⟩
      · have hchange : (Post.busy k (.applying [])).Stops (run s d turns) turns t :=
          h ▸ (stops_run t).1 p
        exact absurd hstop hchange
      · exact hticking
    | left h =>
      refine List.forall_mem_cons.2 ⟨fun hstop => ⟨nofun, fun _ => ?_⟩, ih⟩
      simp only [clock_run]
      exact endsTicks_succ ((stops_run t).2 _ h)
    | _ => exact ih

/-! ### Who told the ticker to go -/

/-- **A stop is under way that has told the ticker to go.** -/
def IsStopping (x : Shared) : Prop :=
  (∃ p k phase, x.post p = .busy k phase ∧ k.errand = .stop ∧ phase ≠ .ending) ∨
    ∃ a, x.session = some a ∧ a.ticket.errand = .stop

/-- It is under way, or it has been answered. -/
def HasStopper (x : Shared) : Prop :=
  x.IsStopping ∨ ∃ r ∈ x.receipts, r.ticket.errand = .stop ∧ r.stamp.isSome = true

/-- What one turn leaves of a stop that is under way, or makes of it. -/
theorem Effect.hasStopper {x y : Shared} (h : Effect x y) (hx : x.Seated)
    (hending : ∀ p k, x.post p = .busy k .ending → k.errand = .stop)
    (happlying : ∀ p k rest, x.post p = .busy k (.applying rest) → k.errand ≠ .stop)
    (hstopper : x.store.ticking = false → x.HasStopper) (hticking : y.store.ticking = false) :
    y.HasStopper := by
  have hposted {z : Shared} {q : Party} {k : Ticket} {phase : Phase} (hq : z.post q = .busy k phase)
      (hstop : k.errand = .stop) (hphase : phase ≠ .ending) : z.HasStopper :=
    .inl (.inl ⟨q, k, phase, hq, hstop, hphase⟩)
  have hseated {z : Shared} {a : Session} (ha : z.session = some a)
      (hstop : a.ticket.errand = .stop) : z.HasStopper := .inl (.inr ⟨a, ha, hstop⟩)
  -- only one is sent elsewhere, and nothing that was answered is forgotten
  have hmove {z : Shared} {p : Party} {post : Post} (hpost : z.post = (x.send p post).post)
      (hmoved : ∀ k phase, x.post p = .busy k phase → k.errand = .stop → phase ≠ .ending →
        z.HasStopper)
      (hdesk : ∀ a, x.session = some a → a.ticket.errand = .stop → z.HasStopper)
      (hreceipts : ∀ r ∈ x.receipts, r ∈ z.receipts) (hstopper : x.HasStopper) :
      z.HasStopper := by
    rcases hstopper with (⟨q, k, phase, hq, hstop, hphase⟩ | ⟨a, ha, hstop⟩) | ⟨r, hr, hstop⟩
    · by_cases hqp : q = p
      · exact hmoved k phase (hqp ▸ hq) hstop hphase
      · exact hposted (by rw [hpost, post_send_ne x post hqp, hq]) hstop hphase
    · exact hdesk a ha hstop
    · exact .inr ⟨r, hreceipts r hr, hstop⟩
  -- at the desk the same call is at another stage
  have hwork {k : Ticket} {a b : Stage} {z : Shared} (hsession : x.session = some ⟨k, a⟩)
      (hpost : z.post = x.post) (hdesk : z.session = some ⟨k, b⟩)
      (hreceipts : z.receipts = x.receipts) (hstopper : x.HasStopper) : z.HasStopper := by
    rcases hstopper with (⟨q, k, phase, hq, hstop, hphase⟩ | ⟨c, hc, hstop⟩) | ⟨r, hr, hstop⟩
    · exact hposted (by rw [hpost, hq]) hstop hphase
    · obtain rfl := Option.some.inj (hsession.symm.trans hc)
      exact hseated hdesk hstop
    · exact .inr ⟨r, hreceipts ▸ hr, hstop⟩
  cases h with
  | idle | spilled => exact hstopper hticking
  | asked e h =>
    refine hmove rfl (fun k phase hp => ?_) (fun _ ha => hseated ha) (fun _ => id)
      (hstopper hticking)
    rw [h] at hp
    cases hp
  | retired h =>
    refine hmove rfl (fun k phase hp => ?_) (fun _ ha => hseated ha) (fun _ => id)
      (hstopper hticking)
    rw [h] at hp
    cases hp
  | applied h =>
    refine hmove rfl (fun k phase hp hstop => ?_) (fun _ ha => hseated ha) (fun _ => id)
      (hstopper hticking)
    cases h.symm.trans hp
    exact absurd hstop (happlying _ _ _ h)
  | queued h hphase =>
    refine hmove rfl (fun k phase hp hstop _ => ?_) (fun _ ha => hseated ha) (fun _ => id)
      (hstopper hticking)
    cases h.symm.trans hp
    exact hposted (post_send_self ..) hstop nofun
  | signalled h => exact hposted (post_send_self ..) (hending _ _ h) nofun
  | excused h hphase =>
    obtain rfl := hx.party_eq h
    refine hmove rfl (fun k phase hp hstop hne => ?_) (fun _ ha => hseated ha)
      (fun _ => List.mem_cons_of_mem _) (hstopper hticking)
    cases h.symm.trans hp
    rcases hphase with ⟨rfl, -⟩ | ⟨rfl, -⟩
    · exact absurd hstop (happlying _ _ _ h)
    · exact absurd rfl hne
  | entered h hfree =>
    refine hmove rfl (fun k phase hp hstop _ => ?_) (fun a ha => ?_) (fun _ => id)
      (hstopper hticking)
    · cases h.symm.trans hp
      exact hseated rfl hstop
    · cases hfree.symm.trans ha
  | halved h | copied h | wrote h | landed h => exact hwork h rfl rfl rfl (hstopper hticking)
  | refused e h =>
    rcases h with h | h
    · exact hwork h rfl rfl rfl (hstopper hticking)
    · exact hwork h rfl rfl rfl (hstopper hticking)
  | left h =>
    refine hmove rfl (fun k phase hp => ?_) (fun a ha hstop => ?_)
      (fun _ => List.mem_cons_of_mem _) (hstopper hticking)
    · cases (hx.inside _ h).symm.trans hp
    · cases h.symm.trans ha
      exact .inr ⟨_, List.mem_cons_self, hstop, rfl⟩

/-- **Someone told the ticker to go** if it does not tick any more. -/
theorem hasStopper_run (hticking : s.ticking = true) (t : Nat) :
    (run s d turns t).store.ticking = false → (run s d turns t).HasStopper := by
  induction t with
  | zero => exact fun hfalse => Bool.noConfusion (hticking.symm.trans hfalse)
  | succ t ih =>
    obtain ⟨y, hy, heq⟩ := effect_run s d turns t
    intro hfalse
    have hposts (p : Party) {k : Ticket} {phase : Phase}
        (h : (run s d turns t).post p = .busy k phase) :
        (Post.busy k phase).Stops (run s d turns) turns t := h ▸ (stops_run t).1 p
    rw [heq] at hfalse ⊢
    exact hy.hasStopper (seated_run t) (fun p k h => (hposts p h).1) (fun p k rest h => hposts p h)
      ih hfalse

/-! ### The last snapshot -/

/-- Every stop that has been answered was answered with success. -/
def NoStopFailed (x : Shared) : Prop :=
  ∀ r ∈ x.receipts, r.ticket.errand = .stop → r.result = .ok ()

/-- **Behind a stop there is a last snapshot**: its own, or that of the stop that told the ticker to
go, if that is not under way any more. -/
theorem exists_last (hticking : s.ticking = true) {t : Nat} {r : Receipt}
    (hr : r ∈ (run s d turns t).receipts) (hstop : r.ticket.errand = .stop)
    (hok : r.result = .ok ())
    (hended : r.stamp.isSome = true ∨ ¬(run s d turns r.instant).IsStopping) :
    ∃ u, ∃ l ∈ (run s d turns u).receipts, l.ticket.errand = .stop ∧ l.stamp.isSome = true ∧
      l.instant ≤ r.instant ∧
      (r.stamp.isSome = true ∨ (run s d turns r.instant).NoStopFailed → l.result = .ok ()) := by
  cases hstamp : r.stamp with
  | some c => exact ⟨t, r, hr, hstop, by rw [hstamp]; rfl, le_rfl, fun _ => hok⟩
  | none =>
    rw [hstamp] at hended
    have hfalse := (stopped_receipts_run t r hr hstop).1 hstamp
    obtain hstopping | ⟨l, hl, hlast, hsome⟩ := hasStopper_run hticking r.instant hfalse
    · exact absurd hstopping (hended.resolve_left Bool.false_ne_true)
    · refine ⟨r.instant, l, hl, hlast, hsome, (answered_run _ l hl).1, fun hsucceeded => ?_⟩
      exact hsucceeded.resolve_left Bool.false_ne_true l hl hlast

/-- As long as nothing is applied the metrics in memory stay the same. -/
theorem memory_eq_of_log_eq {i j u : Nat} (hij : i ≤ j) (hju : j ≤ u)
    (h : (run s d turns u).log = (run s d turns i).log) :
    (run s d turns j).store.memory = (run s d turns u).store.memory := by
  have hlength : (run s d turns u).log.length ≤ (run s d turns j).log.length := by
    rw [h]
    exact (log_mono hij).length_le
  rw [memory_run, memory_run, (log_mono hju).eq_of_length_le hlength]

/-- A store that is opened ticks if there are intervals. -/
theorem ticking_openAt {settings : FileSettings} {time : Nat} {before : Disk}
    (h : FileStore.openAt settings time before = (.ok s, d)) (hinterval : settings.interval ≠ 0) :
    s.ticking = true := by
  unfold FileStore.openAt at h
  split at h
  · cases h
  · obtain ⟨hs, rfl⟩ := Prod.mk.inj h
    cases hs
    exact decide_eq_true hinterval

end Shared

/-- **What is left behind a stop** that was answered, at some instant from then on. -/
structure Stopped (settings : FileSettings) (turns : Nat → Turn) (X : Nat → Shared) (r : Receipt)
    (u : Nat) : Prop where
  /-- The ticker has gone, -/
  gone : (X u).post .ticker = .gone
  /-- and whatever is written is written for a client who is at the desk. -/
  quiet : (X (u + 1)).disk ≠ (X u).disk →
    ∃ n a, (X u).session = some a ∧ a.ticket.tag.party = .client n
  /-- If it made a snapshot itself, or no stop had failed, and if nothing has been applied since
  some instant no later than the beginning of the first stop, then the file holds the words for all
  that is in memory. -/
  held : r.stamp.isSome = true ∨ (X r.instant).NoStopFailed →
    ∀ i, (∀ j, BeginsStop X turns j → i ≤ j) → (X u).log = (X i).log →
      (X u).disk.read settings.path = .ok (words (X u).store.memory)

namespace Shared

variable {s : FileStore} {d : Disk}

/-- **A stop that was answered with success has everything on disk** and leaves no ticker behind, if
it made a snapshot itself, or else if no stop is under way that has told the ticker to go, and none
has failed. -/
theorem stopped {settings : FileSettings} {time : Nat} {before : Disk}
    (h : FileStore.openAt settings time before = (.ok s, d)) (hinterval : settings.interval ≠ 0)
    (turns : Nat → Turn) {t : Nat} {r : Receipt} (hr : r ∈ (run s d turns t).receipts)
    (hstop : r.ticket.errand = .stop) (hok : r.result = .ok ())
    (hended : r.stamp.isSome = true ∨ ¬(run s d turns r.instant).IsStopping) :
    r.instant ≤ t ∧ ∀ u, r.instant ≤ u → Stopped settings turns (run s d turns) r u := by
  obtain ⟨hpath, -, -⟩ := openAt_eq_ok h
  obtain ⟨v, l, hl, hlast, hsome, hinstant, hsucceeded⟩ :=
    exists_last (ticking_openAt h hinterval) hr hstop hok hended
  -- the last snapshot was begun behind the beginning of its stop, and the ticker had gone
  obtain ⟨hbegun, hgone⟩ := (stopped_receipts_run v l hl hlast).2 hsome hlast
  refine ⟨(answered_run t r hr).1, fun u hu => ?_⟩
  have hgone' := gone_mono (hinstant.trans hu) hgone
  constructor
  case gone => exact hgone'
  case quiet =>
    intro hdisk
    obtain ⟨y, hy, heq⟩ := effect_run s d turns u
    rw [heq] at hdisk
    have hdesk {a : Session} (ha : (run s d turns u).session = some a) :
        ∃ n a, (run s d turns u).session = some a ∧ a.ticket.tag.party = .client n := by
      have hparty := party_ne_of_gone hgone' ha
      cases hp : a.ticket.tag.party with
      | ticker => exact absurd hp hparty
      | client n => exact ⟨n, a, ha, hp⟩
    rcases hy.disk_eq with hsame | ⟨k, c, copy, content, ha, -⟩ | ⟨k, c, copy, ha, -⟩
    · exact absurd hsame hdisk
    · exact hdesk ha
    · exact hdesk ha
  case held =>
    intro hdone i hi hlog
    obtain ⟨c, hc⟩ := Option.isSome_iff_exists.1 hsome
    have hbehind : l.ticket.applied ≤ c.gauges := (receipts_run v l hl).applied_le c hc
    have hlanded : c ∈ (run s d turns l.instant).landed := by
      rw [((answered_run v l hl).2 c hc).2, hsucceeded hdone]
      exact List.mem_cons_self
    obtain ⟨c', older, htop, hlater⟩ := exists_landed_behind hlanded (hinstant.trans hu)
    have hbefore := taken_run u c' (by rw [htop]; exact List.mem_cons_self)
    -- both maps were copied when all that is in memory had been applied
    have hgauges : i ≤ c'.gauges := (hi _ hbegun).trans (hbehind.trans hlater)
    have hcounters : i ≤ c'.counters := hgauges.trans hbefore.gauges_lt.le
    have hcopy : copyAt (run s d turns) c' = (run s d turns u).store.memory := by
      rw [copyAt, memory_eq_of_log_eq hcounters hbefore.counters_lt.le hlog,
        memory_eq_of_log_eq hgauges (hbefore.gauges_lt.trans hbefore.counters_lt).le hlog]
    rw [← hpath, read_run htop, hcopy]

/-! ### Stops that have ended and stops that have not -/

/-- A file next to the program, with a snapshot every second. -/
def tickingSettings : FileSettings := ⟨"m", 1000, false⟩

/-- The store that is opened with these settings. -/
def tickingStore : FileStore := ⟨"m", .empty, 1000, 0, true⟩

/-- Pages are counted, and one client calls for a stop while the ticker is at the desk. The ticker's
snapshot is refused, the last one lands, and another client calls for a stop. -/
def stoppedTwice (t : Nat) : Turn :=
  [.call 0 (.change [pages 2]), .tick, .step (.client 0), .step .ticker, .call 1 .stop,
    .step (.client 1), .step (.client 0), .work, .work, .fail .busy, .work, .retire,
    .step (.client 1), .step (.client 1), .work, .work, .work, .work, .work, .call 2 .stop,
    .step (.client 2)].getD t .work

/-- The answer to the other client. -/
def secondStop : Receipt := ⟨⟨⟨.client 2, 19⟩, .stop, 19⟩, none, .ok (), 21⟩

/-- All pages are in the file by then, and the ticker has gone. -/
theorem stopped_stoppedTwice :
    let X := run tickingStore (Disk.blank ["w"]) stoppedTwice
    FileStore.openAt tickingSettings 0 (Disk.blank ["w"]) =
        (.ok tickingStore, Disk.blank ["w"]) ∧
      tickingSettings.interval ≠ 0 ∧ secondStop ∈ (X 21).receipts ∧
      secondStop.ticket.errand = .stop ∧ secondStop.result = .ok () ∧
      ¬(X secondStop.instant).IsStopping ∧ (X 23).post .ticker = .gone ∧
      (X 23).disk.read "m" = .ok (words ⟨.empty, .ofEntries [("pages", 2)]⟩) := by
  intro X
  have hopen : FileStore.openAt tickingSettings 0 (Disk.blank ["w"]) =
      (.ok tickingStore, Disk.blank ["w"]) := rfl
  have hanswer : secondStop ∈ (X 21).receipts :=
    List.mem_of_mem_head? (show (X 21).receipts.head? = some secondStop from rfl)
  have hended : ¬(X secondStop.instant).IsStopping := by
    have hposts : ∀ p, (X 21).post p = .free ∨ (X 21).post p = .gone
      | .ticker => .inr rfl
      | .client 0 | .client 1 | .client 2 | .client (_ + 3) => .inl rfl
    rintro (⟨p, k, phase, hp, -⟩ | ⟨a, ha, -⟩)
    · rcases hposts p with hfree | hgone
      · cases hfree.symm.trans hp
      · cases hgone.symm.trans hp
    · cases ha
  have hsucceeded : (X secondStop.instant).NoStopFailed := by
    have hall : ∀ r ∈ (X 21).receipts, (match r.ticket.errand, r.result with
        | .stop, .error _ => false
        | _, _ => true) = true := List.all_eq_true.1 rfl
    intro r hr hstop
    have hresult := hall r hr
    cases hr : r.result with
    | ok _ => rfl
    | error e =>
      rw [hstop, hr] at hresult
      cases hresult
  have hmemory : (X 23).store.memory = ⟨.empty, .ofEntries [("pages", 2)]⟩ := by decide +kernel
  obtain ⟨-, hstopped⟩ := stopped hopen (by decide) stoppedTwice hanswer rfl rfl (.inr hended)
  have hbehind := hstopped 23 (by decide)
  refine ⟨hopen, by decide, hanswer, rfl, rfl, hended, hbehind.gone, ?_⟩
  rw [← hmemory]
  -- the first stop began at the fourth instant, when the pages had been counted
  refine hbehind.held (.inr hsucceeded) 4 ?_ rfl
  rintro j ⟨n, -, hcall⟩
  by_contra hlt
  interval_cases j <;> cases hcall

/-- The ticker copies an empty store, and then pages are counted. One client calls for a stop, and
another one does while the ticker is at the desk; its snapshot lands. The last snapshot is refused,
and the other client calls for a stop again. -/
def refusedStop (t : Nat) : Turn :=
  [.tick, .step .ticker, .work, .work, .call 0 (.change [pages 2]), .step (.client 0),
    .step (.client 0), .call 0 .stop, .step (.client 0), .call 1 .stop, .step (.client 1), .work,
    .work, .work, .retire, .step (.client 0), .step (.client 0), .work, .work, .fail .busy, .work,
    .call 1 .stop, .step (.client 1)].getD t .work

/-- Both times the other client is answered with success at once, the pages had been counted before
anyone began a stop, and the file does not hold them. The first time the ticker writes behind
that. -/
theorem not_stopped_refusedStop :
    let X := run tickingStore (Disk.blank ["w"]) refusedStop
    FileStore.openAt tickingSettings 0 (Disk.blank ["w"]) =
        (.ok tickingStore, Disk.blank ["w"]) ∧
      tickingSettings.interval ≠ 0 ∧ (∀ j, BeginsStop X refusedStop j → 7 ≤ j) ∧
      ⟨⟨⟨.client 1, 9⟩, .stop, 9⟩, none, .ok (), 11⟩ ∈ (X 11).receipts ∧
      ⟨⟨⟨.client 1, 21⟩, .stop, 21⟩, none, .ok (), 23⟩ ∈ (X 23).receipts ∧
      (∀ t ∈ [11, 23], (X t).log = (X 7).log ∧
        (X t).disk.read "m" ≠ .ok (words (X t).store.memory)) ∧
      ((X 12).session.map fun a => a.ticket.tag.party) = some .ticker ∧
      (X 13).disk.read "m" ≠ (X 12).disk.read "m" := by
  intro X
  have hcounted : ∀ t ∈ [11, 23], (X t).log = (X 7).log := by
    intro t ht
    rcases List.mem_cons.1 ht with rfl | ht
    · rfl
    · obtain rfl := List.mem_singleton.1 ht
      rfl
  have hmissing : ∀ t ∈ [11, 23], (X t).disk.read "m" ≠ .ok (words (X t).store.memory) := by
    decide +kernel
  refine ⟨rfl, by decide, ?_, ?_, ?_, fun t ht => ⟨hcounted t ht, hmissing t ht⟩, rfl,
    by decide +kernel⟩
  · rintro j ⟨n, -, hcall⟩
    by_contra hlt
    interval_cases j <;> cases hcall
  · exact List.mem_of_mem_head? (show (X 11).receipts.head? = some _ from rfl)
  · exact List.mem_of_mem_head? (show (X 23).receipts.head? = some _ from rfl)

end Shared

end Telemetry
