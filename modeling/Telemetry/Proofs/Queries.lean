import Mathlib
import Telemetry.Proofs.FiniteMap
import Telemetry.Proofs.RecordText
import Telemetry.Proofs.Requests

/-!
# Queries read what was accepted

A collector that keeps its metrics in memory is asked for a metric after any requests whatever, and
what it answers is told by the posts among them that were answered with success: the last level that
they carried under the name, or the sum of the counts, one after the other and stopped at the ends
of the range. What was refused leaves no trace, and neither do metrics of the other kind or of other
names.

The two sides meet in one list. A post answered with success makes the one call that its body was
decoded to, so **what was accepted**, read off the answers that went out, is what the calls wrote,
read off the requests; and a store that was empty at first is the finite map of what was written.

A query has no envelope. Its body is read by a reader of its own, which skips what it does not ask
for, and neither a secret nor a key matters to it. But like every body it is bounded, and a query
behind which there is too much white space is not looked at.

* `parse_queryOctets`: every kind and name can be asked for;
* `Collector.accepted_respondAll`: what was accepted is what was written;
* `Collector.respond_of_asks`: the answer to a query;
* `Collector.tellsAccepted_respondAll`: queries, after any requests.
-/

namespace Telemetry

namespace Json

/-! ### Entries as they are written -/

/-- Items with commas between them: the first one, and the others behind a comma each. -/
theorem flatten_intersperse_cons (x : List Char) (xs : List (List Char)) :
    ((x :: xs).intersperse [',']).flatten = x ++ xs.flatMap fun y => ',' :: y := by
  induction xs generalizing x with
  | nil => simp
  | cons y ys ih =>
    rw [List.intersperse_cons_cons, List.flatten_cons, List.flatten_cons, ih y, List.flatMap_cons]
    simp

/-- The octets of an object with more text behind: the first entry, the others behind a comma each,
and the end. -/
theorem octetsOfChars_objectChars (key : String) (value : List Char)
    (entries : List (String × List Char)) (more : Octets) :
    octetsOfChars (objectChars ((key, value) :: entries)) ++ more =
      ascii '{' :: (octetsOfChars (stringChars key) ++ ((ascii ':' :: octetsOfChars value) ++
        ((entries.flatMap fun e => ascii ',' :: (octetsOfChars (stringChars e.1) ++
          ascii ':' :: octetsOfChars e.2)) ++ ascii '}' :: more))) := by
  have hcolon : ∀ cs, octetsOfChars (':' :: cs) = ascii ':' :: octetsOfChars cs := fun _ => rfl
  have hcomma : ∀ cs, octetsOfChars (',' :: cs) = ascii ',' :: octetsOfChars cs := fun _ => rfl
  have hopen : ∀ cs, octetsOfChars ('{' :: cs) = ascii '{' :: octetsOfChars cs := fun _ => rfl
  have hclose : octetsOfChars ['}'] = [ascii '}'] := rfl
  have hothers : octetsOfChars ((entries.map fun e => stringChars e.1 ++ ':' :: e.2).flatMap
      fun y => ',' :: y) = entries.flatMap fun e => ascii ',' ::
        (octetsOfChars (stringChars e.1) ++ ascii ':' :: octetsOfChars e.2) := by
    induction entries with
    | nil => rfl
    | cons e entries ih =>
      simp only [List.map_cons, List.flatMap_cons, octetsOfChars_append, hcomma, hcolon, ih]
  simp only [objectChars, List.map_cons, flatten_intersperse_cons, octetsOfChars_append, hopen,
    hcolon, hclose, hothers, List.append_assoc, List.cons_append, List.nil_append]

section

variable {σ : Type} {entry : String → σ → Octets → Except Stop (σ × Octets)}

/-- A key, and what the handler makes of what follows it. -/
theorem readEntries_key {key : String} {before after : σ} {value more : Octets}
    (h : entry key before (value ++ more) = .ok (after, more)) (f : UInt8) (fuel : Octets) :
    readEntries entry (f :: fuel) true before
      (octetsOfChars (stringChars key) ++ (value ++ more)) =
        readEntries entry fuel false after more := by
  rw [readEntries, octetsOfChars_stringChars, List.cons_append, nextKey,
    skipSpace_cons (by decide)]
  simp only
  rw [if_neg (by decide), if_pos trivial, if_pos trivial]
  show (readChars (octetsOfChars (key.toList.flatMap escapeChar) ++ [ascii '"'] ++
    (value ++ more)) >>= _) = _
  rw [List.append_assoc]
  show (readChars (octetsOfChars (key.toList.flatMap escapeChar) ++ ascii '"' ::
    (value ++ more)) >>= _) = _
  rw [readChars_escaped]
  show (entry key before (value ++ more) >>= _) = _
  rw [h]
  rfl

/-- A key behind a comma. -/
theorem readEntries_comma (key : String) (sofar : σ) (more : Octets) (f : UInt8) (fuel : Octets) :
    readEntries entry (f :: fuel) false sofar
      (ascii ',' :: (octetsOfChars (stringChars key) ++ more)) =
    readEntries entry (f :: fuel) true sofar (octetsOfChars (stringChars key) ++ more) := by
  rw [readEntries, readEntries, nextKey, nextKey, skipSpace_cons (by decide),
    octetsOfChars_stringChars, List.cons_append, skipSpace_cons (by decide)]
  rfl

/-- The end of an object. -/
theorem readEntries_end (sofar : σ) (more : Octets) (f : UInt8) (fuel : Octets) :
    readEntries entry (f :: fuel) false sofar (ascii '}' :: more) =
      .ok (sofar, ascii '}' :: more) := by
  rw [readEntries, nextKey, skipSpace_cons (by decide)]
  rfl

end

end Json

open Json

/-! ### Asking -/

theorem readColon_colon (text : Octets) : readColon (ascii ':' :: text) = .ok text := by
  rw [readColon, skipSpace_cons (by decide)]
  rfl

/-- The octets of a query. -/
def queryOctets (kind : Kind) (name : String) : Octets :=
  octetsOfChars (objectChars [("id", stringChars name), ("type", stringChars kind.tag)])

/-- The octets of the entries of a query with their end and more text behind. -/
def queryEntries (kind : Kind) (name : String) (more : Octets) : Octets :=
  octetsOfChars (stringChars "id") ++
    ((ascii ':' :: octetsOfChars (stringChars name)) ++
      (ascii ',' :: (octetsOfChars (stringChars "type") ++
        ((ascii ':' :: octetsOfChars (stringChars kind.tag)) ++ ascii '}' :: more))))

/-- The octets of a query, entry by entry. -/
theorem queryOctets_append (kind : Kind) (name : String) (more : Octets) :
    queryOctets kind name ++ more = ascii '{' :: queryEntries kind name more := by
  simp only [queryOctets, octetsOfChars_objectChars, List.flatMap_cons, List.flatMap_nil,
    List.append_assoc, List.cons_append, List.append_nil, queryEntries]

/-- The name is read. -/
theorem readQueryEntry_id (name : String) (more : Octets) :
    readQueryEntry "id" ⟨none, none⟩ ((ascii ':' :: octetsOfChars (stringChars name)) ++ more) =
      .ok (⟨some name, none⟩, more) := by
  rw [readQueryEntry, if_pos rfl, List.cons_append, readColon_colon]
  simp only [Option.isSome_none, Bool.false_eq_true, if_false, bind, Except.bind,
    readString_stringChars]

/-- The word for the kind is read. -/
theorem readQueryEntry_type (id tag : String) (more : Octets) :
    readQueryEntry "type" ⟨some id, none⟩ ((ascii ':' :: octetsOfChars (stringChars tag)) ++ more) =
      .ok (⟨some id, some tag⟩, more) := by
  rw [readQueryEntry, if_neg (by decide), if_pos rfl, List.cons_append, readColon_colon]
  simp only [Option.isSome_none, Bool.false_eq_true, if_false, bind, Except.bind,
    readString_stringChars]

/-- The entries of a query are read. Each of the two keys burns one octet of fuel, and so does the
end. -/
theorem readEntries_query (kind : Kind) (name : String) (more : Octets) {fuel : Octets}
    (hfuel : 3 ≤ fuel.length) :
    readEntries readQueryEntry fuel true ⟨none, none⟩ (queryEntries kind name more) =
      .ok (⟨some name, some kind.tag⟩, ascii '}' :: more) := by
  obtain ⟨f₁, f₂, f₃, fuel, rfl⟩ : ∃ f₁ f₂ f₃ left, fuel = f₁ :: f₂ :: f₃ :: left := by
    match fuel, hfuel with
    | f₁ :: f₂ :: f₃ :: left, _ => exact ⟨f₁, f₂, f₃, left, rfl⟩
  rw [queryEntries, readEntries_key (readQueryEntry_id _ _), readEntries_comma,
    readEntries_key (readQueryEntry_type _ _ _), readEntries_end]

/-- White space may follow. -/
theorem closeText_of_isSpace {space : Octets} (h : ∀ b ∈ space, isSpace b = true) :
    closeText space = .ok () := by
  rw [closeText, skipSpace, List.dropWhile_eq_nil_iff.2 h]

/-- **A query is read**, with any white space behind it. -/
theorem parse_queryOctets (kind : Kind) (name : String) {space : Octets}
    (h : ∀ b ∈ space, isSpace b = true) :
    Query.parse (queryOctets kind name ++ space) = .ok ⟨name, kind.tag⟩ := by
  have hfuel : 3 ≤ (queryEntries kind name space).length := by
    rw [queryEntries, List.length_append]
    exact Nat.le_trans (by decide) (Nat.le_add_right _ _)
  have hclose : closeObject (ascii '}' :: space) = .ok space := by
    rw [closeObject, skipSpace_cons (by decide)]
    rfl
  have hquery : readFramed "struct MetricQuery" readQueryObject readQueryList
      (queryOctets kind name ++ space) = .ok (⟨name, kind.tag⟩, space) := by
    rw [queryOctets_append, readFramed, skipSpace_cons (by decide)]
    simp only
    rw [if_neg (by decide), if_pos trivial, readQueryObject,
      readEntries_query kind name space hfuel]
    simp only [bind, Except.bind, hclose]
  rw [Query.parse, readAll, hquery]
  simp only [bind, Except.bind, closeText_of_isSpace h]
  rfl

/-- **A request that asks for a metric**: a post with a query for its kind and its name, which may
be compressed if the header says so. -/
def Request.Asks (r : Request) (kind : Kind) (name : String) : Prop :=
  r.Posts .value ∧ ∃ body query, Opener.unpackAs r.label r.body = .ok body ∧
    Query.parse body = .ok query ∧ query.kind = .ok kind ∧ query.id = name

/-- The plain request for a metric, with white space behind the query. -/
def Request.asking (kind : Kind) (name : String) (space : Octets) : Request :=
  ⟨"POST", "/value/", [], queryOctets kind name ++ space⟩

/-- **Every metric can be asked for.** -/
theorem Request.asks_asking (kind : Kind) (name : String) {space : Octets}
    (h : ∀ b ∈ space, isSpace b = true) : (asking kind name space).Asks kind name := by
  have hpath : String.ofList ("/value/".toList.takeWhile fun c => c != '?' && c != '#') =
      Route.value.path := by decide
  exact ⟨⟨rfl, hpath⟩, _, _, rfl, parse_queryOctets kind name h, Kind.ofTag_tag kind, rfl⟩

/-! ### What has been accepted -/

namespace Collector

variable (c : Collector) (r : Request) (s : Site) (m : Memory)

/-- The metrics that a post carries. -/
def carried : List Metric :=
  if r.Posts .updates then (c.opener.decodeBatch r.label r.body).toOption.getD []
  else if r.Posts .update then (c.opener.decodeOne r.label r.body).toOption.toList
  else []

/-- **What has been accepted**: the metrics carried by the posts that were answered with success. -/
def accepted (rs : List Request) (responses : List Response) : List Metric :=
  (rs.zip responses).flatMap fun p => if p.2.status = 200 then c.carried p.1 else []

/-- A request writes what it carries if it is answered with success, and nothing otherwise. -/
theorem written_eq_carried :
    (c.change? r).elim [] Call.written =
      if (c.respond r (s.holding m)).1.status = 200 then c.carried r else [] := by
  by_cases hstatus : (c.respond r (s.holding m)).1.status = 200
  · rw [if_pos hstatus, carried]
    by_cases hupdates : r.Posts .updates
    · obtain ⟨hlength, ms, hms⟩ := (status_respond_updates c r s m hupdates).1 hstatus
      rw [change?_updates c r hupdates hlength hms, if_pos hupdates, hms]
      rfl
    · by_cases hupdate : r.Posts .update
      · obtain ⟨hlength, n, hn⟩ := (status_respond_update c r s m hupdate).1 hstatus
        rw [change?_update c r hupdate hlength hn, if_neg hupdates, if_pos hupdate, hn]
        rfl
      · rw [change?, if_neg hupdates, if_neg hupdate, ite_self, if_neg hupdates, if_neg hupdate]
        rfl
  · rw [if_neg hstatus]
    cases hcall : c.change? r with
    | none => rfl
    | some call => exact absurd (success_of_change? c r s m hcall).2 hstatus

/-- **What was accepted is what was written.** -/
theorem accepted_respondAll (rs : List Request) :
    c.accepted rs (c.respondAll rs (s.holding m)).1 =
      rs.flatMap fun r => (c.change? r).elim [] Call.written := by
  induction rs generalizing m with
  | nil => rfl
  | cons r rs ih =>
    have hstep : (c.respondAll (r :: rs) (s.holding m)).1 = (c.respond r (s.holding m)).1 ::
        (c.respondAll rs (c.respond r (s.holding m)).2).1 := rfl
    rw [hstep, accepted, List.zip_cons_cons, List.flatMap_cons, List.flatMap_cons,
      written_eq_carried c r s m, site_respond_holding]
    exact congrArg _ (ih _)

/-- A store in memory behind requests is the one in front of them with what was accepted applied. -/
theorem site_respondAll_accepted (rs : List Request) :
    (c.respondAll rs (s.holding m)).2 =
      s.holding (m.applyAll (c.accepted rs (c.respondAll rs (s.holding m)).1)) := by
  rw [accepted_respondAll, site_respondAll_holding]

/-! ### Answers to queries -/

/-- What a query is answered, and that it changes nothing, whichever backend is there. -/
theorem respond_of_asks {kind : Kind} {name : String} (h : r.Asks kind name)
    (hlength : r.body.length ≤ bodyLimit) :
    c.respond r s =
      ((Response.ofResult ((s.get kind name).map .ofMetric)).signed c.opener.secret, s) := by
  obtain ⟨hposts, body, query, hbody, hparse, hkind, rfl⟩ := h
  have hvalue : postValue r s = (s.get kind query.id).map .ofMetric := by
    simp only [postValue, hbody, hparse, hkind, bind, Except.bind]
    cases s.get kind query.id <;> rfl
  rw [respond, route_eq_handle c r s hposts (by decide), handle_value c r s hlength, hvalue]

end Collector

namespace Memory

variable {ms : List Metric} {kind : Kind} {name : String}

/-- What was written to an empty store is found. -/
theorem exists_lookup_of_writes (h : Writes ms kind name) :
    ∃ m : Metric, m.name = name ∧ empty.valueBehind ms kind name = some m.value ∧
      (empty.applyAll ms).lookup kind name = .ok m := by
  have hsome : empty.valueBehind ms kind name ≠ none := fun hnone =>
    (valueBehind_eq_none_iff.1 hnone).2 h
  obtain ⟨v, hv⟩ := Option.ne_none_iff_exists'.1 hsome
  obtain ⟨n, -, -, rfl⟩ := h
  refine ⟨⟨n.name, v, n.named⟩, rfl, hv, lookup_eq_ok_iff.2 ⟨rfl, ?_⟩⟩
  rw [value?_applyAll, hv]

/-- What was not is unknown. -/
theorem lookup_of_not_writes (h : ¬Writes ms kind name) :
    (empty.applyAll ms).lookup kind name = .error (.unknownMetric kind.tag name) := by
  rw [lookup_eq_unknown_iff, value?_applyAll, valueBehind_eq_none_iff]
  exact ⟨by cases kind <;> rfl, h⟩

end Memory

namespace Collector

/-- **What queries are answered** behind requests of which these metrics were accepted. -/
structure TellsAccepted (c : Collector) (ms : List Metric) (site : Site) : Prop where
  /-- A query succeeds exactly if a metric of that kind and name was accepted. -/
  success {q : Request} {kind : Kind} {name : String} : q.Asks kind name →
    q.body.length ≤ bodyLimit → ((c.respond q site).1.status = 200 ↔ Writes ms kind name)
  /-- Then it tells the last level of a gauge, -/
  gauge {q : Request} {name : String} : q.Asks .gauge name → q.body.length ≤ bodyLimit →
    Writes ms .gauge name → ∃ m : Metric, m.name = name ∧
      (levelsOf name ms).getLast?.map .gauge = some m.value ∧
      (c.respond q site).1.body = encodeRecord m
  /-- or the sum of all counts of a counter. -/
  counter {q : Request} {name : String} : q.Asks .counter name → q.body.length ≤ bodyLimit →
    Writes ms .counter name → ∃ m : Metric, m.name = name ∧
      m.value = .counter ((deltasOf name ms).foldl addClamped 0) ∧
      (c.respond q site).1.body = encodeRecord m
  /-- Otherwise it is answered that the metric is unknown. -/
  unknown {q : Request} {kind : Kind} {name : String} : q.Asks kind name →
    q.body.length ≤ bodyLimit → ¬Writes ms kind name →
      (c.respond q site).1.status = 404 ∧ (c.respond q site).1.body = octetsOfChars (objectChars
        [("code", stringChars "UNKNOWN_METRIC"),
          ("msg", stringChars ("unknown metric: kind=" ++ kind.tag ++ " name=" ++ name))])
  /-- Whatever is accepted later of the other kind, or of other names, the answer stays the same. -/
  apart {q : Request} {kind : Kind} {name : String} (more : List Request) : q.Asks kind name →
    q.body.length ≤ bodyLimit → ¬Writes (c.accepted more (c.respondAll more site).1) kind name →
      (c.respond q (c.respondAll more site).2).1 = (c.respond q site).1
  /-- And what one metric posted with success is answered is what a query for it is answered right
  behind that. -/
  echo {r : Request} : r.Posts .update → (c.respond r site).1.status = 200 →
    ∃ m, c.opener.decodeOne r.label r.body = .ok m ∧
      ∀ q : Request, q.Asks m.kind m.name → q.body.length ≤ bodyLimit →
        (c.respond q (c.respond r site).2).1 = (c.respond r site).1

/-- **Queries read what was accepted**, whatever has been asked of a collector before whose metrics
are in memory, with or without a secret or a key. -/
theorem tellsAccepted_respondAll (c : Collector) (s : Site) (past : List Request) :
    c.TellsAccepted (c.accepted past (c.respondAll past (s.holding .empty)).1)
      (c.respondAll past (s.holding .empty)).2 := by
  rw [site_respondAll_accepted]
  generalize c.accepted past (c.respondAll past (s.holding .empty)).1 = ms
  have hasked {q : Request} {kind : Kind} {name : String} (now : Memory) (hq : q.Asks kind name)
      (hlength : q.body.length ≤ bodyLimit) : (c.respond q (s.holding now)).1 =
        (Response.ofResult ((now.lookup kind name).map .ofMetric)).signed c.opener.secret := by
    rw [respond_of_asks c q _ hq hlength]
    rfl
  constructor
  case success =>
    intro q kind name hq hlength
    rw [hasked _ hq hlength, Response.status_signed]
    by_cases hwrites : Writes ms kind name
    · obtain ⟨m, -, -, hfound⟩ := Memory.exists_lookup_of_writes hwrites
      rw [hfound]
      exact iff_of_true rfl hwrites
    · rw [Memory.lookup_of_not_writes hwrites]
      exact iff_of_false (Response.status_ofFailure_ne _) hwrites
  case gauge =>
    intro q name hq hlength hwrites
    obtain ⟨m, hname, hvalue, hfound⟩ := Memory.exists_lookup_of_writes hwrites
    refine ⟨m, hname, ?_, ?_⟩
    · rw [← hvalue, Memory.valueBehind]
      exact congrArg _ (Option.or_none).symm
    · rw [hasked _ hq hlength, hfound, Response.body_signed]
      rfl
  case counter =>
    intro q name hq hlength hwrites
    obtain ⟨m, hname, hvalue, hfound⟩ := Memory.exists_lookup_of_writes hwrites
    refine ⟨m, hname, ?_, ?_⟩
    · rw [Memory.valueBehind, if_neg fun hnil => deltasOf_eq_nil_iff.1 hnil hwrites] at hvalue
      exact (Option.some.inj hvalue).symm
    · rw [hasked _ hq hlength, hfound, Response.body_signed]
      rfl
  case unknown =>
    intro q kind name hq hlength hwrites
    rw [hasked _ hq hlength, Memory.lookup_of_not_writes hwrites, Response.status_signed,
      Response.body_signed]
    exact ⟨rfl, rfl⟩
  case apart =>
    intro q kind name more hq hlength hwrites
    rw [site_respondAll_accepted, hasked _ hq hlength, hasked _ hq hlength]
    have hsame := (Memory.value?_applyAll (Memory.empty.applyAll ms) _ kind name).trans
      (Memory.valueBehind_of_not_writes hwrites)
    rw [Memory.lookup_congr hsame]
  case echo =>
    intro r hupdate hstatus
    obtain ⟨hlength, m, hm⟩ := (status_respond_update c r s _ hupdate).1 hstatus
    refine ⟨m, hm, fun q hq hshort => ?_⟩
    -- what has been stored is looked up at once, just as a query would look it up
    have hecho : c.respond r (s.holding (Memory.empty.applyAll ms)) =
        ((Response.ofResult ((((Memory.empty.applyAll ms).apply m).lookup m.kind m.name).map
          .ofMetric)).signed c.opener.secret, s.holding ((Memory.empty.applyAll ms).apply m)) := by
      rw [respond, route_eq_handle c r _ hupdate (by decide), handle_update c r _ hlength,
        postUpdate, hm]
      rfl
    rw [hecho, hasked _ hq hshort]

/-- A query for a level with two megabytes of white space behind it. -/
def paddedQuery : Request := .asking .gauge "depth" (List.replicate bodyLimit (ascii ' '))

/-- It asks for a level that nobody has posted, and what it is answered is that it is too long. -/
theorem paddedQuery_refused :
    paddedQuery.Asks .gauge "depth" ∧
      ((⟨⟨none, none⟩⟩ : Collector).respond paddedQuery (.inMemory .empty)).1.status = 413 := by
  have hasks : paddedQuery.Asks .gauge "depth" := by
    refine Request.asks_asking _ _ fun b hb => ?_
    rw [List.eq_of_mem_replicate hb]
    decide
  have hlong : bodyLimit < paddedQuery.body.length := by
    rw [paddedQuery, Request.asking, List.length_append, List.length_replicate]
    exact Nat.lt_add_of_pos_left (by decide)
  refine ⟨hasks, ?_⟩
  rw [respond, route_eq_handle _ _ _ hasks.1 (by decide), handle_of_lt _ _ _ (by decide) hlong]
  rfl

end Collector

end Telemetry
