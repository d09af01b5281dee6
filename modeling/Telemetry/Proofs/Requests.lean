import Mathlib
import Telemetry.Collector.Startup
import Telemetry.Proofs.Calls
import Telemetry.Proofs.Results

/-!
# What requests do to a store

Of all that a collector is asked, two things change its store, a batch posted and one metric
posted, and these only after the whole body has been decoded. So a request comes down to at most
one call of the store, `Collector.change?`, and whatever else happens to it - a path or a method
that nobody serves, a body that is too long, a signature, a compression or a record at fault -
leaves the site as it is. A run of requests comes down to the run of their calls.

In memory a call cannot fail, so there a request that posts metrics is answered with success
exactly if it makes its call, and what is then stored is what its body was decoded to.

* `Collector.site_respond`, `Collector.site_respondAll`: one request, and requests in turn;
* `Collector.status_respond_holding`: which requests are answered with success;
* `Collector.respond_holding`: a request to a store in memory.
-/

namespace Telemetry

/-! ### Routes -/

/-- Different routes have different paths. -/
theorem Route.ofPath?_eq_some_iff {p : String} {route : Route} :
    ofPath? p = some route ↔ p = route.path := by
  constructor
  · intro h
    rw [ofPath?] at h
    have hfound := List.find?_some h
    exact (eq_of_beq hfound).symm
  · rintro rfl
    cases route <;> decide

/-- A request that posts to a route. -/
def Request.Posts (r : Request) (route : Route) : Prop := r.method = "POST" ∧ r.path = route.path

instance (r : Request) (route : Route) : Decidable (r.Posts route) :=
  inferInstanceAs (Decidable (_ ∧ _))

/-- Nothing is posted to two routes. -/
theorem Request.Posts.eq {r : Request} {route other : Route} (h : r.Posts route)
    (h' : r.Posts other) : route = other := by
  have hpath := Route.ofPath?_eq_some_iff.2 h.2
  rw [Route.ofPath?_eq_some_iff.2 h'.2] at hpath
  exact (Option.some.inj hpath).symm

/-! ### Answers -/

/-- The response to what went well or failed. -/
def Response.ofResult : Except Failure Response → Response
  | .ok response => response
  | .error e => .ofFailure e

/-- No failure is answered with success. -/
theorem Response.status_ofFailure_ne (e : Failure) : (ofFailure e).status ≠ 200 := by
  have hstatus : (ofFailure e).status = e.toClass.status := rfl
  have hge := e.status_toClass_ge
  omega

/-- The signature changes nothing about how a request went. -/
@[simp] theorem Response.status_signed (secret : Option Octets) (response : Response) :
    (response.signed secret).status = response.status := by
  cases secret with
  | none => rfl
  | some secret =>
    rw [signed]
    split <;> rfl

/-- Nor about what is said. -/
@[simp] theorem Response.body_signed (secret : Option Octets) (response : Response) :
    (response.signed secret).body = response.body := by
  cases secret with
  | none => rfl
  | some secret =>
    rw [signed]
    split <;> rfl

namespace Collector

variable (c : Collector) (r : Request) (s : Site)

/-- What is posted to a route is handled there. -/
theorem route_eq_handle {route : Route} (h : r.Posts route) (hroute : route ≠ .ping) :
    c.route r s = c.handle route r s := by
  have htaken : route.methods.contains r.method = true := by
    rw [h.1]
    cases route with
    | ping => exact absurd rfl hroute
    | _ => decide
  simp only [Collector.route, Route.ofPath?_eq_some_iff.2 h.2, htaken, if_pos]

/-- A body that is too long is not looked at. -/
theorem handle_of_lt {route : Route} (hroute : route ≠ .ping) (h : bodyLimit < r.body.length) :
    c.handle route r s = (.tooLong, s) := by
  unfold handle
  rw [if_neg hroute, if_pos h]

/-- A batch posted. -/
theorem handle_updates (h : r.body.length ≤ bodyLimit) :
    c.handle .updates r s = (.ofResult (c.postUpdates r s).1, (c.postUpdates r s).2) := by
  unfold handle
  rw [if_neg (by decide), if_neg (Nat.not_lt.2 h)]
  match c.postUpdates r s with
  | (.ok _, _) | (.error _, _) => rfl

/-- One metric posted. -/
theorem handle_update (h : r.body.length ≤ bodyLimit) :
    c.handle .update r s = (.ofResult (c.postUpdate r s).1, (c.postUpdate r s).2) := by
  unfold handle
  rw [if_neg (by decide), if_neg (Nat.not_lt.2 h)]
  match c.postUpdate r s with
  | (.ok _, _) | (.error _, _) => rfl

/-- A query posted. -/
theorem handle_value (h : r.body.length ≤ bodyLimit) :
    c.handle .value r s = (.ofResult (postValue r s), s) := by
  unfold handle
  rw [if_neg (by decide), if_neg (Nat.not_lt.2 h)]
  cases postValue r s <;> rfl

/-- What is too long, or goes to a route that only looks, changes nothing. -/
theorem site_handle_eq {route : Route}
    (h : r.body.length ≤ bodyLimit → route ≠ .updates ∧ route ≠ .update) :
    (c.handle route r s).2 = s := by
  unfold handle
  split
  · rfl
  · split
    · rfl
    · rename_i hlength
      obtain ⟨hupdates, hupdate⟩ := h (Nat.not_lt.1 hlength)
      cases route with
      | updates => exact absurd rfl hupdates
      | update => exact absurd rfl hupdate
      | value | ping => cases postValue r s <;> rfl

/-- What is too long, or posted to neither of two routes, changes nothing. -/
theorem site_route_eq
    (h : r.body.length ≤ bodyLimit → ¬r.Posts .updates ∧ ¬r.Posts .update) :
    (c.route r s).2 = s := by
  rw [Collector.route]
  split
  · rfl
  · rename_i route hroute
    have hpath := Route.ofPath?_eq_some_iff.1 hroute
    split
    · rename_i htaken
      refine site_handle_eq c r s fun hlength => ⟨?_, ?_⟩
      · rintro rfl
        exact (h hlength).1 ⟨by simpa [Route.methods] using htaken, hpath⟩
      · rintro rfl
        exact (h hlength).2 ⟨by simpa [Route.methods] using htaken, hpath⟩
    · rfl

/-! ### The call that a request makes -/

/-- **The call that a request makes** of the store, if it makes one that can change it. -/
def change? : Option Call :=
  if r.body.length ≤ bodyLimit then
    if r.Posts .updates then (c.opener.decodeBatch r.label r.body).toOption.map .batch
    else if r.Posts .update then (c.opener.decodeOne r.label r.body).toOption.map .update
    else none
  else none

/-- What a batch posted does to the site is what its call does. -/
theorem site_postUpdates :
    (c.postUpdates r s).2 = ((c.opener.decodeBatch r.label r.body).toOption.map .batch).elim s
      fun call => (s.serve call).2 := by
  rw [postUpdates]
  cases c.opener.decodeBatch r.label r.body with
  | error e => rfl
  | ok ms =>
    simp only [Except.toOption, Option.map_some, Option.elim_some, Site.serve]
    match s.batchUpdate ms with
    | (.ok (), _) | (.error _, _) => rfl

/-- What one metric posted does to the site is what its call does: the look-up behind it changes
nothing. -/
theorem site_postUpdate :
    (c.postUpdate r s).2 = ((c.opener.decodeOne r.label r.body).toOption.map .update).elim s
      fun call => (s.serve call).2 := by
  rw [postUpdate]
  cases c.opener.decodeOne r.label r.body with
  | error e => rfl
  | ok m =>
    simp only [Except.toOption, Option.map_some, Option.elim_some, Site.serve]
    match s.update m with
    | (.ok (), _) | (.error _, _) => rfl

/-- **A request does to the site what its call does**, whichever backend is there. -/
theorem site_respond : (c.respond r s).2 = (c.change? r).elim s fun call => (s.serve call).2 := by
  have hsite : (c.respond r s).2 = (c.route r s).2 := rfl
  rw [hsite, change?]
  by_cases hlength : r.body.length ≤ bodyLimit
  · rw [if_pos hlength]
    by_cases hupdates : r.Posts .updates
    · rw [if_pos hupdates, route_eq_handle c r s hupdates (by decide),
        handle_updates c r s hlength, site_postUpdates]
    · rw [if_neg hupdates]
      by_cases hupdate : r.Posts .update
      · rw [if_pos hupdate, route_eq_handle c r s hupdate (by decide),
          handle_update c r s hlength, site_postUpdate]
      · rw [if_neg hupdate, site_route_eq c r s fun _ => ⟨hupdates, hupdate⟩]
        rfl
  · rw [if_neg hlength, site_route_eq c r s fun h => absurd h hlength]
    rfl

/-- Requests in turn do to the site what their calls do in turn. -/
theorem site_respondAll (rs : List Request) :
    (c.respondAll rs s).2 =
      (rs.filterMap c.change?).foldl (fun s call => (s.serve call).2) s := by
  induction rs generalizing s with
  | nil => rfl
  | cons r rs ih =>
    have hstep : (c.respondAll (r :: rs) s).2 = (c.respondAll rs (c.respond r s).2).2 := rfl
    rw [hstep, ih, site_respond]
    cases hcall : c.change? r with
    | none => rw [List.filterMap_cons_none hcall, Option.elim_none]
    | some call => rw [List.filterMap_cons_some hcall, Option.elim_some, List.foldl_cons]

end Collector

/-! ### A store in memory -/

/-- A site with these metrics in memory in place of whatever it has. -/
def Site.holding (s : Site) (m : Memory) : Site := { s with backend := .memory m }

/-- In memory a call changes the two maps and nothing else. -/
theorem Site.serve_holding (s : Site) (m : Memory) (call : Call) :
    (s.holding m).serve call = (m.answer call, s.holding (m.behind call)) := by
  cases call <;> rfl

/-- A metric that has just been applied is there. -/
theorem Memory.exists_lookup_apply (m : Memory) (n : Metric) :
    ∃ found, (m.apply n).lookup n.kind n.name = .ok found := by
  obtain ⟨name, v, hname⟩ := n
  have hofValue : ∀ v, Metric.ofValue name v = .ok ⟨name, v, hname⟩ := fun v =>
    Metric.ofValue_name_value ⟨name, v, hname⟩
  cases v with
  | gauge x =>
    refine ⟨⟨name, .gauge x, hname⟩, ?_⟩
    simp only [apply, write, Metric.kind, Value.kind, lookup_eq, value?, NameMap.lookup_insert_self,
      Option.map_some, hofValue]
  | counter d =>
    refine ⟨⟨name, .counter (addClamped ((m.counters.lookup name).getD 0) d), hname⟩, ?_⟩
    simp only [apply, write, Metric.kind, Value.kind, lookup_eq, value?, NameMap.lookup_modify,
      Option.map_some, hofValue, if_pos]

namespace Collector

variable (c : Collector) (r : Request) (s : Site) (m : Memory)

/-- A request to a store in memory applies the metrics that its call writes. -/
theorem site_respond_holding :
    (c.respond r (s.holding m)).2 =
      s.holding (m.applyAll ((c.change? r).elim [] Call.written)) := by
  rw [site_respond]
  cases c.change? r with
  | none => rfl
  | some call => rw [Option.elim_some, Option.elim_some, Site.serve_holding, Memory.behind]

/-- **Requests to a store in memory** apply the metrics that their calls write, one after the
other, and do nothing else. -/
theorem site_respondAll_holding (rs : List Request) :
    (c.respondAll rs (s.holding m)).2 =
      s.holding (m.applyAll (rs.flatMap fun r => (c.change? r).elim [] Call.written)) := by
  induction rs generalizing m with
  | nil => rfl
  | cons r rs ih =>
    have hstep : (c.respondAll (r :: rs) (s.holding m)).2 =
        (c.respondAll rs (c.respond r (s.holding m)).2).2 := rfl
    rw [hstep, site_respond_holding, ih, List.flatMap_cons, Memory.applyAll_append]

/-- **A batch posted is answered with success** exactly if it can be decoded. -/
theorem status_respond_updates (h : r.Posts .updates) :
    (c.respond r (s.holding m)).1.status = 200 ↔
      r.body.length ≤ bodyLimit ∧ ∃ ms, c.opener.decodeBatch r.label r.body = .ok ms := by
  have hstatus : (c.respond r (s.holding m)).1.status = (c.route r (s.holding m)).1.status :=
    Response.status_signed ..
  rw [hstatus, route_eq_handle c r _ h (by decide)]
  by_cases hlength : r.body.length ≤ bodyLimit
  · rw [handle_updates c r _ hlength, postUpdates]
    cases c.opener.decodeBatch r.label r.body with
    | error e => simpa [Response.ofResult] using Response.status_ofFailure_ne e
    | ok ms => simp [Site.batchUpdate, Site.holding, Response.ofResult, Response.bare, hlength]
  · rw [handle_of_lt c r _ (by decide) (Nat.not_le.1 hlength)]
    simp [hlength, Response.tooLong, Response.withBody]

/-- **One metric posted is answered with success** exactly if it can be decoded: what has been
stored is found. -/
theorem status_respond_update (h : r.Posts .update) :
    (c.respond r (s.holding m)).1.status = 200 ↔
      r.body.length ≤ bodyLimit ∧ ∃ n, c.opener.decodeOne r.label r.body = .ok n := by
  have hstatus : (c.respond r (s.holding m)).1.status = (c.route r (s.holding m)).1.status :=
    Response.status_signed ..
  rw [hstatus, route_eq_handle c r _ h (by decide)]
  by_cases hlength : r.body.length ≤ bodyLimit
  · rw [handle_update c r _ hlength, postUpdate]
    cases c.opener.decodeOne r.label r.body with
    | error e => simpa [Response.ofResult] using Response.status_ofFailure_ne e
    | ok n =>
      obtain ⟨found, hfound⟩ := m.exists_lookup_apply n
      simp [Site.update, Site.get, Site.holding, hfound, Except.map, Response.ofResult,
        Response.ofMetric, Response.withBody, hlength]
  · rw [handle_of_lt c r _ (by decide) (Nat.not_le.1 hlength)]
    simp [hlength, Response.tooLong, Response.withBody]

/-- The metrics that an accepted batch writes are those of its body. -/
theorem change?_updates {ms : List Metric} (h : r.Posts .updates)
    (hlength : r.body.length ≤ bodyLimit) (hms : c.opener.decodeBatch r.label r.body = .ok ms) :
    c.change? r = some (.batch ms) := by
  rw [change?, if_pos hlength, if_pos h, hms]
  rfl

/-- The metric that is written where one is accepted is that of the body. -/
theorem change?_update {n : Metric} (h : r.Posts .update) (hlength : r.body.length ≤ bodyLimit)
    (hn : c.opener.decodeOne r.label r.body = .ok n) : c.change? r = some (.update n) := by
  have hother : ¬r.Posts .updates := fun h' => Route.noConfusion (h'.eq h)
  rw [change?, if_pos hlength, if_neg hother, if_pos h, hn]
  rfl

/-- **A request that makes a call is a post that is answered with success.** -/
theorem success_of_change? {call : Call} (h : c.change? r = some call) :
    (r.Posts .updates ∨ r.Posts .update) ∧ (c.respond r (s.holding m)).1.status = 200 := by
  rw [change?] at h
  split at h
  · rename_i hlength
    split at h
    · rename_i hupdates
      obtain ⟨ms, hms, -⟩ := Option.map_eq_some_iff.1 h
      refine ⟨.inl hupdates, (status_respond_updates c r s m hupdates).2 ⟨hlength, ms, ?_⟩⟩
      exact eq_ok_of_toOption hms
    · split at h
      · rename_i hupdate
        obtain ⟨n, hn, -⟩ := Option.map_eq_some_iff.1 h
        refine ⟨.inr hupdate, (status_respond_update c r s m hupdate).2 ⟨hlength, n, ?_⟩⟩
        exact eq_ok_of_toOption hn
      · cases h
  · cases h

/-- **What a request may do to metrics in memory**, by what it is answered. -/
structure StoresDecoded (response : Response) (behind : Site) : Prop where
  /-- A batch posted is answered with success exactly if it can be decoded, and then its metrics
  are applied in their order. -/
  updates : r.Posts .updates → (response.status = 200 ↔ r.body.length ≤ bodyLimit ∧
    ∃ ms, c.opener.decodeBatch r.label r.body = .ok ms ∧ behind = s.holding (m.applyAll ms))
  /-- So is one metric posted, and then it is applied. -/
  update : r.Posts .update → (response.status = 200 ↔ r.body.length ≤ bodyLimit ∧
    ∃ n, c.opener.decodeOne r.label r.body = .ok n ∧ behind = s.holding (m.apply n))
  /-- Whatever is answered otherwise, and whatever else is asked, leaves everything as it was. -/
  otherwise : ¬((r.Posts .updates ∨ r.Posts .update) ∧ response.status = 200) →
    behind = s.holding m

/-- One request to a store in memory. -/
theorem storesDecoded_respond :
    c.StoresDecoded r s m (c.respond r (s.holding m)).1 (c.respond r (s.holding m)).2 where
  updates h := by
    rw [status_respond_updates c r s m h]
    refine and_congr_right fun hlength => exists_congr fun ms => ?_
    refine (and_iff_left_of_imp fun hms => ?_).symm
    rw [site_respond_holding, change?_updates c r h hlength hms]
    rfl
  update h := by
    rw [status_respond_update c r s m h]
    refine and_congr_right fun hlength => exists_congr fun n => ?_
    refine (and_iff_left_of_imp fun hn => ?_).symm
    rw [site_respond_holding, change?_update c r h hlength hn]
    rfl
  otherwise h := by
    rw [site_respond_holding]
    cases hcall : c.change? r with
    | none => rfl
    | some call => exact absurd (success_of_change? c r s m hcall) h

/-- **Only what is decoded and answered with success is stored**, whatever has been asked of the
collector before. -/
theorem storesDecoded_after (past : List Request) :
    ∃ now, (c.respondAll past (s.holding m)).2 = s.holding now ∧
      c.StoresDecoded r s now (c.respond r (c.respondAll past (s.holding m)).2).1
        (c.respond r (c.respondAll past (s.holding m)).2).2 := by
  refine ⟨_, site_respondAll_holding c s m past, ?_⟩
  rw [site_respondAll_holding c s m past]
  exact storesDecoded_respond ..

end Collector

end Telemetry
