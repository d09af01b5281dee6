import Mathlib
import Telemetry.Agent.Startup
import Telemetry.Proofs.Results
import Telemetry.Proofs.Signing

/-!
# Where batches are sent

The settings of an agent name its collector by a text, and batches are sent to a location that is
made of it. White space around the text does not count, nor do slashes at its end. What is left is
a scheme and a place behind it, or a place alone, which gets a scheme (`ReadAs`); and the location
is the scheme, the place and the path for batches. So the location has a host exactly if the place
begins with something other than a slash.

## Where the check of the settings stops

The check refuses a text in which there is nothing but white space, and that is less than a
location asks for: a slash is something for the check, and nothing for the location if it is at the
end. So a text of slashes is accepted, and the place that it is read as is empty. Whoever reads the
location of it takes the path for the host, and the batches go to the root of a host called
`updates` (`Delivery.request_of_slashes`). There is no host either in the location of a text with a
slash in its place and more behind (`LeavesOutHost`); but there the slash is skipped, and the
batches go where they would go without it (`parse?_updatesUrl_of_slashes_ahead`). These are all the
texts that are accepted and give no destination.

* `NamesHost`, `EndsInPath`, `IsDestination`: what a location is asked for;
* `ReadAs`, `updatesUrl_of_readAs`: what a text is read as, and the location made of it;
* `namesHost_updatesUrl_iff`, `endsInPath_updatesUrl_iff`, `isDestination_updatesUrl_iff`: which
  texts give a destination;
* `updatesUrl_padded`: what may be added to a text;
* `locates_of_check`: all of this for settings that pass the check;
* `isDestination_of_startAgent_iff`: an agent that has started.
-/

namespace Telemetry

/-! ### Destinations -/

/-- The schemes of the web, as they stand in front of a host. -/
def schemes : List String := ["http://", "https://"]

/-- **A location names a host**: some characters directly behind the scheme, up to the next
slash. -/
def NamesHost (url : String) : Prop :=
  ∃ scheme ∈ schemes, ∃ host rest : List Char,
    url.toList = scheme.toList ++ (host ++ '/' :: rest) ∧ host ≠ [] ∧ '/' ∉ host

/-- **A location ends in the path for batches**, with no further slash in front of it. -/
def EndsInPath (url : String) : Prop :=
  ∃ front : List Char, url.toList = front ++ "/updates/".toList ∧ front.getLast? ≠ some '/'

/-- **A location that batches can be sent to.** -/
structure IsDestination (url : String) : Prop where
  /-- There is a host. -/
  host : NamesHost url
  /-- At the end there is the path. -/
  path : EndsInPath url

/-- No scheme goes on as another one does. -/
theorem append_inj_of_mem_schemes {s t : String} (hs : s ∈ schemes) (ht : t ∈ schemes)
    {xs ys : List Char} (h : s.toList ++ xs = t.toList ++ ys) : s = t ∧ xs = ys := by
  simp only [schemes, List.mem_cons, List.not_mem_nil, or_false] at hs ht
  rcases hs with rfl | rfl <;> rcases ht with rfl | rfl
  · exact ⟨rfl, List.append_cancel_left h⟩
  · simp at h
  · simp at h
  · exact ⟨rfl, List.append_cancel_left h⟩

/-- A scheme does not begin with a slash. -/
theorem append_ne_slash_cons {s : String} (hs : s ∈ schemes) (xs ys : List Char) :
    s.toList ++ xs ≠ '/' :: ys := by
  simp only [schemes, List.mem_cons, List.not_mem_nil, or_false] at hs
  rcases hs with rfl | rfl <;> simp

/-- A scheme ends in a slash. -/
theorem getLast?_of_mem_schemes {s : String} (hs : s ∈ schemes) : s.toList.getLast? = some '/' := by
  simp only [schemes, List.mem_cons, List.not_mem_nil, or_false] at hs
  rcases hs with rfl | rfl <;> decide

/-! ### Slashes at the end -/

/-- **What is dropped at the end is slashes**, and no slash is left there. -/
theorem exists_eq_append_dropEndSlashes (cs : List Char) :
    (dropEndSlashes cs).getLast? ≠ some '/' ∧
      ∃ n, cs = dropEndSlashes cs ++ List.replicate n '/' := by
  have hdropped : dropEndSlashes cs = cs.rdropWhile (· == '/') := rfl
  have hslashes : ∀ c ∈ cs.rtakeWhile (· == '/'), c = '/' := fun c hc =>
    eq_of_beq (List.mem_rtakeWhile_imp (p := (· == '/')) hc)
  rw [hdropped]
  refine ⟨fun hlast => ?_, (cs.rtakeWhile (· == '/')).length, ?_⟩
  · have hne : cs.rdropWhile (· == '/') ≠ [] := fun hnil => by
      rw [hnil] at hlast
      cases hlast
    rw [List.getLast?_eq_some_getLast hne] at hlast
    exact List.rdropWhile_last_not _ _ hne (beq_of_eq (Option.some.inj hlast))
  · rw [← List.eq_replicate_of_mem hslashes, List.rdropWhile_append_rtakeWhile]

/-- Slashes at the end are dropped. -/
theorem dropEndSlashes_append_replicate (cs : List Char) (n : Nat) :
    dropEndSlashes (cs ++ List.replicate n '/') = dropEndSlashes cs := by
  rw [dropEndSlashes, List.reverse_append, List.reverse_replicate,
    List.dropWhile_append_of_pos fun c hc => beq_of_eq (List.eq_of_mem_replicate hc)]
  rfl

/-- Where there is no slash at the end none is dropped. -/
theorem dropEndSlashes_eq_self {cs : List Char} (h : cs.getLast? ≠ some '/') :
    dropEndSlashes cs = cs := by
  refine (List.rdropWhile_eq_self_iff (p := (· == '/'))).2 fun hne hlast => h ?_
  rw [List.getLast?_eq_some_getLast hne, eq_of_beq hlast]

/-! ### What a text is read as -/

/-- **A text is read as a scheme and a place.** Slashes at its end are no part of either, and a text
that does not tell a scheme gets one. -/
inductive ReadAs : List Char → String → List Char → Prop where
  /-- The scheme is told, and there is a place behind it. -/
  | told {scheme : String} {place : List Char} (n : Nat) (hscheme : scheme ∈ schemes)
    (hne : place ≠ []) (hend : place.getLast? ≠ some '/') :
    ReadAs (scheme.toList ++ (place ++ List.replicate n '/')) scheme place
  /-- No scheme is told. -/
  | untold {place : List Char} (n : Nat) (hnone : ∀ scheme ∈ schemes, ¬scheme.toList <+: place)
    (hend : place.getLast? ≠ some '/') :
    ReadAs (place ++ List.replicate n '/') "http://" place

theorem ReadAs.mem_schemes {cs place : List Char} {scheme : String} (h : ReadAs cs scheme place) :
    scheme ∈ schemes := by
  cases h with
  | told n hscheme hne hend => exact hscheme
  | untold n hnone hend => exact List.mem_cons_self

theorem ReadAs.getLast?_ne {cs place : List Char} {scheme : String} (h : ReadAs cs scheme place) :
    place.getLast? ≠ some '/' := by
  cases h with
  | told n hscheme hne hend => exact hend
  | untold n hnone hend => exact hend

theorem hasScheme_iff {cs : List Char} :
    hasScheme cs = true ↔ ∃ scheme ∈ schemes, scheme.toList <+: cs := by
  simp only [hasScheme, schemes, Bool.or_eq_true, List.isPrefixOf_iff_prefix, List.mem_cons,
    List.not_mem_nil, or_false, exists_eq_or_imp, exists_eq_left]

/-- **Every text is read as something.** -/
theorem exists_readAs (cs : List Char) : ∃ scheme place, ReadAs cs scheme place := by
  obtain ⟨hend, n, hcs⟩ := exists_eq_append_dropEndSlashes cs
  generalize dropEndSlashes cs = core at hend hcs
  subst hcs
  by_cases htold : ∃ scheme ∈ schemes, scheme.toList <+: core
  · obtain ⟨scheme, hscheme, place, rfl⟩ := htold
    -- a scheme with nothing behind it would end in a slash
    have hne : place ≠ [] := by
      rintro rfl
      rw [List.append_nil] at hend
      exact hend (getLast?_of_mem_schemes hscheme)
    rw [List.getLast?_append_of_ne_nil _ hne] at hend
    rw [List.append_assoc]
    exact ⟨scheme, place, .told n hscheme hne hend⟩
  · exact ⟨"http://", core, .untold n (fun scheme hs hp => htold ⟨scheme, hs, hp⟩) hend⟩

/-- **The location is what the text is read as**, and the path for batches behind it. -/
theorem updatesUrl_of_readAs {base scheme : String} {place : List Char}
    (h : ReadAs (trimBlank base.toList) scheme place) :
    updatesUrl base = scheme ++ String.ofList place ++ "/updates/" := by
  rw [updatesUrl]
  generalize trimBlank base.toList = cs at h
  cases h with
  | told n hscheme hne hend =>
    have hcore : dropEndSlashes (scheme.toList ++ (place ++ List.replicate n '/')) =
        scheme.toList ++ place := by
      rw [← List.append_assoc, dropEndSlashes_append_replicate, dropEndSlashes_eq_self]
      rwa [List.getLast?_append_of_ne_nil _ hne]
    have htold : hasScheme (scheme.toList ++ place) = true :=
      hasScheme_iff.2 ⟨scheme, hscheme, List.prefix_append _ _⟩
    rw [hcore]
    simp only [htold, reduceIte, String.ofList_append, String.ofList_toList, String.empty_append,
      updatesPath]
  | untold n hnone hend =>
    have htold : hasScheme place = false := Bool.eq_false_iff.2 fun htold => by
      obtain ⟨scheme, hscheme, hprefix⟩ := hasScheme_iff.1 htold
      exact hnone scheme hscheme hprefix
    rw [dropEndSlashes_append_replicate, dropEndSlashes_eq_self hend]
    simp only [htold, Bool.false_eq_true, reduceIte, updatesPath]

/-- The characters of the location. -/
theorem toList_updatesUrl {base scheme : String} {place : List Char}
    (h : ReadAs (trimBlank base.toList) scheme place) :
    (updatesUrl base).toList = scheme.toList ++ (place ++ "/updates/".toList) := by
  rw [updatesUrl_of_readAs h, String.toList_append, String.toList_append, String.toList_ofList,
    List.append_assoc]

/-! ### Which texts give a destination -/

/-- **A text leaves out the host**: a slash stands at its head, or directly behind a scheme with
something other than slashes to follow. Where nothing but slashes stands behind the scheme the host
is not left out, for then the word of the scheme is taken for it. -/
def LeavesOutHost (cs : List Char) : Prop :=
  cs.head? = some '/' ∨
    ∃ scheme ∈ schemes, ∃ rest, cs = scheme.toList ++ '/' :: rest ∧ ∃ c ∈ rest, c ≠ '/'

/-- A text of slashes leaves it out. -/
theorem leavesOutHost_of_slashes {cs : List Char} (hne : cs ≠ []) (h : ∀ c ∈ cs, c = '/') :
    LeavesOutHost cs := by
  obtain ⟨c, cs, rfl⟩ := List.exists_cons_of_ne_nil hne
  exact .inl (congrArg some (h c List.mem_cons_self))

/-- What does not end in a slash has something else in it, or nothing. -/
theorem exists_mem_ne_slash {cs : List Char} (hne : cs ≠ []) (hend : cs.getLast? ≠ some '/') :
    ∃ c ∈ cs, c ≠ '/' := by
  rw [List.getLast?_eq_some_getLast hne] at hend
  exact ⟨cs.getLast hne, List.getLast_mem hne, fun h => hend (congrArg some h)⟩

namespace ReadAs

variable {cs place : List Char} {scheme : String}

/-- The place is empty exactly if the text is nothing but slashes. -/
theorem ne_nil_iff (h : ReadAs cs scheme place) : place ≠ [] ↔ ∃ c ∈ cs, c ≠ '/' := by
  cases h with
  | told n hscheme hne hend =>
    obtain ⟨c, hc, hslash⟩ := exists_mem_ne_slash hne hend
    exact iff_of_true hne
      ⟨c, List.mem_append_right _ (List.mem_append_left _ hc), hslash⟩
  | untold n hnone hend =>
    constructor
    · intro hne
      obtain ⟨c, hc, hslash⟩ := exists_mem_ne_slash hne hend
      exact ⟨c, List.mem_append_left _ hc, hslash⟩
    · rintro ⟨c, hc, hslash⟩ rfl
      exact hslash (List.eq_of_mem_replicate hc)

/-- **The host is left out** exactly if the place is empty or begins with a slash. -/
theorem leavesOutHost_iff (h : ReadAs cs scheme place) (hcs : cs ≠ []) :
    LeavesOutHost cs ↔ ¬∃ c ∈ place.head?, c ≠ '/' := by
  cases h with
  | told n hscheme hne hend =>
    obtain ⟨d, place, rfl⟩ := List.exists_cons_of_ne_nil hne
    constructor
    · rintro (hhead | ⟨s, hs, rest, htext, -⟩) ⟨c, hc, hslash⟩
      · obtain ⟨rest, htext⟩ := List.head?_eq_some_iff.1 hhead
        exact append_ne_slash_cons hscheme _ _ htext
      · obtain ⟨-, hplace⟩ := append_inj_of_mem_schemes hscheme hs htext
        exact hslash ((Option.some.inj hc).symm.trans (List.cons.inj hplace).1)
    · intro hhead
      obtain rfl : d = '/' := by
        by_contra hd
        exact hhead ⟨d, rfl, hd⟩
      refine .inr ⟨scheme, hscheme, _, rfl, ?_⟩
      -- the place does not end in the slash that it begins with
      have hplace : place ≠ [] := by
        rintro rfl
        exact hend rfl
      obtain ⟨c, hc, hslash⟩ := exists_mem_ne_slash hplace
        (by rwa [List.getLast?_cons_of_ne_nil hplace] at hend)
      exact ⟨c, List.mem_append_left _ hc, hslash⟩
  | untold n hnone hend =>
    constructor
    · rintro (hhead | ⟨s, hs, rest, htext, d, hd, hd'⟩) ⟨c, hc, hslash⟩
      · obtain ⟨place, rfl⟩ := List.head?_eq_some_iff.1 hc
        exact hslash (Option.some.inj hhead)
      · -- the place would go on behind the scheme, or end within it and leave only slashes
        rcases List.append_eq_append_iff.1 htext with ⟨more, hs', hrest⟩ | ⟨more, hplace, -⟩
        · have hslashes : d ∈ List.replicate n '/' :=
            hrest ▸ List.mem_append_right _ (List.mem_cons_of_mem _ hd)
          exact hd' (List.eq_of_mem_replicate hslashes)
        · exact hnone s hs ⟨more, hplace.symm⟩
    · intro hhead
      refine .inl ?_
      cases place with
      | nil =>
        cases n with
        | zero => exact absurd rfl hcs
        | succ n => rfl
      | cons d place =>
        by_contra hd
        exact hhead ⟨d, rfl, fun h => hd (congrArg some h)⟩

end ReadAs

section Locations

variable {base scheme : String} {place : List Char}

/-- The location has a host exactly if the place begins with something other than a slash. -/
theorem namesHost_iff_of_readAs (h : ReadAs (trimBlank base.toList) scheme place) :
    NamesHost (updatesUrl base) ↔ ∃ c ∈ place.head?, c ≠ '/' := by
  rw [NamesHost, toList_updatesUrl h]
  constructor
  · rintro ⟨t, ht, host, rest, hurl, hne, hslash⟩
    obtain ⟨-, hbehind⟩ := append_inj_of_mem_schemes h.mem_schemes ht hurl
    obtain ⟨c, host, rfl⟩ := List.exists_cons_of_ne_nil hne
    have hc : c ≠ '/' := fun hc => hslash (hc ▸ List.mem_cons_self)
    cases place with
    | nil => exact absurd (List.cons.inj hbehind).1.symm hc
    | cons d place => exact ⟨d, rfl, (List.cons.inj hbehind).1 ▸ hc⟩
  · rintro ⟨c, hc, hslash⟩
    -- there is a next slash, if only the one of the path
    obtain ⟨host, rest, hbehind, hhost⟩ := List.eq_append_cons_of_mem
      (List.mem_append_right place (show '/' ∈ "/updates/".toList by decide))
    refine ⟨scheme, h.mem_schemes, host, rest, by rw [hbehind], ?_, hhost⟩
    rintro rfl
    obtain ⟨place, rfl⟩ := List.head?_eq_some_iff.1 hc
    exact hslash (List.cons.inj hbehind).1

/-- The location ends in the path with one slash in front exactly if there is a place. -/
theorem endsInPath_iff_of_readAs (h : ReadAs (trimBlank base.toList) scheme place) :
    EndsInPath (updatesUrl base) ↔ place ≠ [] := by
  rw [EndsInPath, toList_updatesUrl h]
  constructor
  · rintro ⟨front, hurl, hfront⟩ rfl
    rw [List.nil_append] at hurl
    rw [← List.append_cancel_right hurl] at hfront
    exact hfront (getLast?_of_mem_schemes h.mem_schemes)
  · intro hne
    refine ⟨scheme.toList ++ place, (List.append_assoc _ _ _).symm, ?_⟩
    rw [List.getLast?_append_of_ne_nil _ hne]
    exact h.getLast?_ne

/-- **A location has a host** exactly if the text does not leave it out. -/
theorem namesHost_updatesUrl_iff (hbase : trimBlank base.toList ≠ []) :
    NamesHost (updatesUrl base) ↔ ¬LeavesOutHost (trimBlank base.toList) := by
  obtain ⟨scheme, place, h⟩ := exists_readAs (trimBlank base.toList)
  rw [namesHost_iff_of_readAs h, h.leavesOutHost_iff hbase, not_not]

/-- **It has one slash in front of the path** exactly if the text is not nothing but slashes. -/
theorem endsInPath_updatesUrl_iff :
    EndsInPath (updatesUrl base) ↔ ∃ c ∈ trimBlank base.toList, c ≠ '/' := by
  obtain ⟨scheme, place, h⟩ := exists_readAs (trimBlank base.toList)
  rw [endsInPath_iff_of_readAs h, h.ne_nil_iff]

/-- **It is a destination** exactly if the host is not left out: a text of slashes leaves it out. -/
theorem isDestination_updatesUrl_iff (hbase : trimBlank base.toList ≠ []) :
    IsDestination (updatesUrl base) ↔ ¬LeavesOutHost (trimBlank base.toList) := by
  refine ⟨fun h => (namesHost_updatesUrl_iff hbase).1 h.host, fun h => ?_⟩
  refine ⟨(namesHost_updatesUrl_iff hbase).2 h, endsInPath_updatesUrl_iff.2 ?_⟩
  by_contra hslashes
  push Not at hslashes
  exact h (leavesOutHost_of_slashes hbase hslashes)

end Locations

/-! ### What may be added to a text -/

/-- Slashes at the end are not white space. -/
theorem Unpadded.append_slashes {cs : List Char} (h : Unpadded cs) (n : Nat) :
    Unpadded (cs ++ List.replicate n '/') := by
  cases n with
  | zero => rwa [List.replicate_zero, List.append_nil]
  | succ n =>
    constructor
    · intro c hc
      cases cs with
      | nil => exact Option.some.inj hc ▸ by decide
      | cons d cs => exact h.1 c hc
    · intro c hc
      rw [List.replicate_succ', ← List.append_assoc, List.getLast?_concat] at hc
      exact Option.some.inj hc ▸ by decide

/-- **Slashes at the end and white space around the whole change nothing.** -/
theorem updatesUrl_padded {base before behind : String} (hbase : Unpadded base.toList)
    (hbefore : isBlankText before = true) (hbehind : isBlankText behind = true) (n : Nat) :
    updatesUrl (before ++ (base ++ String.ofList (List.replicate n '/')) ++ behind) =
      updatesUrl base := by
  have htrimmed : trimBlank
      (before ++ (base ++ String.ofList (List.replicate n '/')) ++ behind).toList =
        base.toList ++ List.replicate n '/' := by
    rw [String.toList_append, String.toList_append, String.toList_append, String.toList_ofList,
      List.append_assoc]
    exact (hbase.append_slashes n).trimBlank_append (List.all_eq_true.1 hbefore)
      (List.all_eq_true.1 hbehind)
  simp only [updatesUrl, htrimmed, hbase.trimBlank_eq_self, dropEndSlashes_append_replicate]

example : updatesUrl "\t collector:9000// \n" = "http://collector:9000/updates/" := by
  decide +kernel

/-! ### Where the batches go without a host -/

/-- Slashes behind a scheme are skipped by whoever reads a location. -/
theorem Net.Url.parse?_slashes {scheme : String} (hscheme : scheme ∈ schemes) (n : Nat)
    (cs : List Char) :
    parse? (String.ofList (scheme.toList ++ (List.replicate n '/' ++ cs))) =
      parse? (String.ofList (scheme.toList ++ cs)) := by
  have hkept : (List.replicate n '/').filter (fun c => c != '\t' && c != '\n' && c != '\r') =
      List.replicate n '/' := List.filter_eq_self.2 fun c hc => by
    rw [List.eq_of_mem_replicate hc]
    decide
  have hskipped (rest : List Char) :
      (List.replicate n '/' ++ rest).dropWhile (fun c => c == '/' || c == '\\') =
        rest.dropWhile fun c => c == '/' || c == '\\' :=
    List.dropWhile_append_of_pos fun c hc => by
      rw [List.eq_of_mem_replicate hc]
      decide
  -- what is read is the scheme up to its colon, and the rest from the first character on that is
  -- no slash
  simp only [schemes, List.mem_cons, List.not_mem_nil, or_false] at hscheme
  rcases hscheme with rfl | rfl
  · simp [parse?, hkept, hskipped, show "http".length = 4 from rfl]
  · simp [parse?, hkept, hskipped, show "https".length = 5 from rfl]

/-- **Slashes in the place of the host are skipped**: the batches go where they would go
without. -/
theorem parse?_updatesUrl_of_slashes_ahead {base scheme : String} {n : Nat} {place : List Char}
    (h : ReadAs (trimBlank base.toList) scheme (List.replicate n '/' ++ place)) :
    Net.Url.parse? (updatesUrl base) =
      Net.Url.parse? (scheme ++ String.ofList place ++ "/updates/") := by
  have hurl (cs : List Char) : scheme ++ String.ofList cs ++ "/updates/" =
      String.ofList (scheme.toList ++ (cs ++ "/updates/".toList)) := by
    simp only [String.ofList_append, String.ofList_toList, String.append_assoc]
  rw [updatesUrl_of_readAs h, hurl, hurl, List.append_assoc, Net.Url.parse?_slashes h.mem_schemes]

/-- A text of nothing but slashes, however many, gives one and the same location. -/
theorem updatesUrl_of_slashes {base : String} (h : ∀ c ∈ trimBlank base.toList, c = '/') :
    updatesUrl base = "http:///updates/" := by
  have hreads : ReadAs (trimBlank base.toList) "http://" [] := by
    have hnone : ∀ scheme ∈ schemes, ¬scheme.toList <+: [] := fun scheme hscheme hprefix => by
      have hlast := getLast?_of_mem_schemes hscheme
      rw [List.prefix_nil.1 hprefix] at hlast
      cases hlast
    rw [List.eq_replicate_of_mem h]
    exact .untold _ hnone (by decide)
  rw [updatesUrl_of_readAs hreads]
  rfl

/-- **With a text of slashes every batch goes to the root of a host called `updates`**: the slash
in front of the path is skipped as well, and so the path is taken for the host. -/
theorem Delivery.request_of_slashes {d : Delivery} {base : String} {e : Envelope} {o : Outgoing}
    (hbase : ∀ c ∈ trimBlank base.toList, c = '/') (hd : d.url = updatesUrl base)
    (ho : d.request e = .ok o) : o.url.authority = "updates" ∧ o.url.target = "/" := by
  have hread : Net.Url.parse? d.url = some ⟨"http", "", "updates", none, "/", none, none⟩ := by
    rw [hd, updatesUrl_of_slashes hbase]
    decide +kernel
  rw [request, hread] at ho
  dsimp only at ho
  split at ho
  · cases ho
  · split at ho
    · cases ho
    · cases ho
      exact ⟨rfl, rfl⟩

/-! ### Settings that pass the check -/

/-- There is something to be read in the text of accepted settings. -/
theorem ReporterSettings.trimBlank_ne_nil_of_check {s : ReporterSettings} (h : s.check = .ok ()) :
    trimBlank s.server.toList ≠ [] := by
  intro hnil
  obtain ⟨before, behind, hserver, hbefore, hbehind⟩ := exists_eq_append_trimBlank s.server.toList
  rw [hnil, List.nil_append] at hserver
  have hblank : isBlankText s.server = true := by
    rw [isBlankText, hserver, List.all_eq_true]
    exact List.forall_mem_append.2 ⟨hbefore, hbehind⟩
  rw [check, if_pos hblank] at h
  cases h

/-- **What is known of the text that names a collector**, if it is accepted. -/
structure Locates (server : String) : Prop where
  /-- The text is read as a scheme and a place. -/
  readable : ∃ scheme place, ReadAs (trimBlank server.toList) scheme place
  /-- The location is made of what the text is read as. -/
  reads (scheme : String) (place : List Char) (h : ReadAs (trimBlank server.toList) scheme place) :
    updatesUrl server = scheme ++ String.ofList place ++ "/updates/"
  /-- **A scheme is at its head**, in any case. -/
  scheme : ∃ scheme ∈ schemes, scheme.toList <+: (updatesUrl server).toList
  /-- The path for batches is at its end, in any case. -/
  path : "/updates/".toList <:+ (updatesUrl server).toList
  /-- **There is a host behind the scheme** exactly if the text does not leave it out. -/
  host : NamesHost (updatesUrl server) ↔ ¬LeavesOutHost (trimBlank server.toList)
  /-- There is one slash in front of the path exactly if the text is more than slashes. -/
  single : EndsInPath (updatesUrl server) ↔ ∃ c ∈ trimBlank server.toList, c ≠ '/'
  /-- **All of it holds together** exactly if the host is not left out. -/
  destination : IsDestination (updatesUrl server) ↔ ¬LeavesOutHost (trimBlank server.toList)
  /-- **Slashes at the end and white space around** leave the location as it is. -/
  padded (hserver : Unpadded server.toList) (before behind : String)
    (hbefore : isBlankText before = true) (hbehind : isBlankText behind = true) (n : Nat) :
    updatesUrl (before ++ (server ++ String.ofList (List.replicate n '/')) ++ behind) =
      updatesUrl server

/-- **Accepted settings lead to a collector**, unless they leave out its host. -/
theorem locates_of_check {s : ReporterSettings} (h : s.check = .ok ()) : Locates s.server := by
  have hserver := s.trimBlank_ne_nil_of_check h
  obtain ⟨scheme, place, hreads⟩ := exists_readAs (trimBlank s.server.toList)
  exact {
    readable := ⟨scheme, place, hreads⟩
    reads := fun _ _ => updatesUrl_of_readAs
    scheme := by
      rw [toList_updatesUrl hreads]
      exact ⟨scheme, hreads.mem_schemes, List.prefix_append _ _⟩
    path := by
      rw [toList_updatesUrl hreads, ← List.append_assoc]
      exact List.suffix_append _ _
    host := namesHost_updatesUrl_iff hserver
    single := endsInPath_updatesUrl_iff
    destination := isDestination_updatesUrl_iff hserver
    padded := fun hends _ _ hbefore hbehind n => updatesUrl_padded hends hbefore hbehind n }

/-- Settings with a collector behind a path. -/
def sharedHost : ReporterSettings :=
  { ReporterSettings.standard with server := "https://collector:9000/metrics" }

/-- They are accepted, and what is known of such a text is known of theirs: it has a host, and
white space and slashes may be added to it. -/
theorem locates_sharedHost :
    sharedHost.check = .ok () ∧ Unpadded sharedHost.server.toList ∧
      ¬LeavesOutHost (trimBlank sharedHost.server.toList) ∧ Locates sharedHost.server := by
  have hcheck : sharedHost.check = .ok () := by decide +kernel
  have hblank : sharedHost.server.toList.any isBlank = false := by decide +kernel
  have hunpadded : Unpadded sharedHost.server.toList := unpadded_of_forall fun c hc =>
    Bool.eq_false_iff.2 (List.any_eq_false.1 hblank c hc)
  refine ⟨hcheck, hunpadded, ?_, locates_of_check hcheck⟩
  rw [hunpadded.trimBlank_eq_self]
  have htext : sharedHost.server.toList =
      "https://".toList ++ 'c' :: "ollector:9000/metrics".toList := by decide +kernel
  rw [htext]
  rintro (hhead | ⟨scheme, hscheme, rest, hrest, -⟩)
  · cases hhead
  · obtain ⟨-, hplace⟩ := append_inj_of_mem_schemes (List.mem_cons_of_mem _ List.mem_cons_self)
      hscheme hrest
    cases hplace

/-- Settings with nothing but a slash for the collector. -/
def slashAlone : ReporterSettings := { ReporterSettings.standard with server := "/" }

/-- They are accepted, and what they name is no destination. -/
theorem slashAlone_accepted_astray :
    slashAlone.check = .ok () ∧ updatesUrl slashAlone.server = "http:///updates/" ∧
      ¬IsDestination (updatesUrl slashAlone.server) := by
  have hcheck : slashAlone.check = .ok () := by decide +kernel
  have hslash : trimBlank slashAlone.server.toList = ['/'] := by decide +kernel
  have hslashes : ∀ c ∈ trimBlank slashAlone.server.toList, c = '/' := by
    rw [hslash]
    exact List.forall_mem_singleton.2 rfl
  have hne := slashAlone.trimBlank_ne_nil_of_check hcheck
  refine ⟨hcheck, updatesUrl_of_slashes hslashes, fun h => ?_⟩
  exact (isDestination_updatesUrl_iff hne).1 h (leavesOutHost_of_slashes hne hslashes)

/-! ### Agents that have started -/

/-- Settings that have been parsed have passed the check. -/
theorem AgentSettings.check_agent_of_parse {text : String} {s : AgentSettings}
    (h : parse text = .ok s) : s.agent.check = .ok () := by
  unfold parse at h
  split at h
  · cases h
  · rename_i read _
    cases hcheck : read.check with
    | error e =>
      rw [hcheck] at h
      cases h
    | ok u =>
      rw [hcheck] at h
      cases h
      rw [check] at hcheck
      split at hcheck
      · cases hcheck
      · exact hcheck

/-- An agent that has started has read settings that were accepted, and sends to the location that
they name. -/
theorem check_of_startAgent {arguments : List String} {d : Disk} {settings : AgentSettings}
    {delivery : Delivery} (h : startAgent arguments d = .ok (settings, delivery)) :
    settings.agent.check = .ok () ∧ delivery.url = updatesUrl settings.agent.server := by
  obtain ⟨loaded, hload, h⟩ := bind_eq_ok h
  obtain ⟨made, hmade, h⟩ := bind_eq_ok h
  cases h
  obtain ⟨text, -, hparse⟩ := bind_eq_ok hload
  obtain ⟨encryptor, -, hmade⟩ := bind_eq_ok hmade
  exact ⟨AgentSettings.check_agent_of_parse hparse,
    (congrArg Delivery.url (Except.ok.inj hmade)).symm⟩

/-- **An agent that has started sends to a destination** exactly if its settings do not leave out
the host. -/
theorem isDestination_of_startAgent_iff {arguments : List String} {d : Disk}
    {settings : AgentSettings} {delivery : Delivery}
    (h : startAgent arguments d = .ok (settings, delivery)) :
    IsDestination delivery.url ↔ ¬LeavesOutHost (trimBlank settings.agent.server.toList) := by
  obtain ⟨hcheck, hurl⟩ := check_of_startAgent h
  rw [hurl, isDestination_updatesUrl_iff (ReporterSettings.trimBlank_ne_nil_of_check hcheck)]

end Telemetry
