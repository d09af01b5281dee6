import Mathlib
import Telemetry.Proofs.Requests
import Telemetry.Proofs.Signing

/-!
# What a secret guards

A receiver with a secret checks the signature after it has decrypted a body and before it looks
at anything else in it. So what an envelope is answered with depends on what it holds only if its
label shows the signature of what is under the encryption. If not, it is refused, always with the
same failure: the steps behind the check, unpacking and reading, have failures of their own and
never that one, and so it tells a client nothing but that the signature does not fit.

A collector stores only what it has decoded. So its store is, after any requests, what it would be
if those without a signature had never been made.

* `Opener.bind_openBody_eq_badDataHash_iff`: which envelopes are refused for their signature;
* `Collector.change?_eq_none_of_not_admits`: a request without a signature makes no call;
* `Collector.guarded`: all that a secret guards.
-/

namespace Telemetry

/-! ### Labels -/

/-- **A label shows the signature of octets**: there is a text in it which is, without the white
space around it and in small letters, the one that the holder of the secret writes. -/
def EnvelopeLabel.Shows (label : EnvelopeLabel) (secret octets : Octets) : Prop :=
  ∃ text, label.signature = some text ∧
    (trimBlank text.toList).map Char.toLower = (sign secret octets).toList

instance (label : EnvelopeLabel) (secret octets : Octets) :
    Decidable (label.Shows secret octets) :=
  match h : label.signature with
  | none => .isFalse fun ⟨_, htext, _⟩ => nomatch h.symm.trans htext
  | some text =>
    decidable_of_iff ((trimBlank text.toList).map Char.toLower = (sign secret octets).toList)
      ⟨fun hsign => ⟨text, h, hsign⟩, fun ⟨_, htext, hsign⟩ => by
        rwa [Option.some.inj (h.symm.trans htext)]⟩

/-- One label shows the signatures of octets with one keyed digest. -/
theorem EnvelopeLabel.Shows.keyedDigest_eq {label : EnvelopeLabel} {secret octets other : Octets}
    (h : label.Shows secret octets) (h' : label.Shows secret other) :
    keyedDigest secret octets = keyedDigest secret other := by
  obtain ⟨text, htext, hsign⟩ := h
  obtain ⟨text', htext', hsign'⟩ := h'
  obtain rfl := Option.some.inj (htext.symm.trans htext')
  exact hexOf_injective (String.toList_injective (hsign.symm.trans hsign'))

/-- **The check of a signature** asks for nothing but that the label shows it. -/
theorem Opener.checkSignature_eq (secret : Octets) (d : Option Rsa.Decryptor)
    (label : EnvelopeLabel) (payload : Octets) :
    checkSignature ⟨some secret, d⟩ label payload =
      if label.Shows secret payload then .ok () else .error .badDataHash := by
  rw [checkSignature]
  cases hsignature : label.signature with
  | none =>
    rw [if_neg]
    rintro ⟨text, htext, -⟩
    cases hsignature.symm.trans htext
  | some text =>
    have hshows : label.Shows secret payload ↔ isSignature secret payload text = true := by
      rw [isSignature_iff]
      refine ⟨fun ⟨other, hother, hsign⟩ => ?_, fun hsign => ⟨text, hsignature, hsign⟩⟩
      rwa [Option.some.inj (hsignature.symm.trans hother)]
    simp only [verify, hshows]

/-! ### The steps behind the check -/

/-- Unpacking has failures of its own. -/
theorem Opener.unpackAs_ne_badDataHash (label : EnvelopeLabel) (payload : Octets) :
    unpackAs label payload ≠ .error .badDataHash := by
  rw [unpackAs]
  split
  · rw [gunzip]
    split <;> simp
  · simp

/-- So has what a record says. -/
theorem Record.toMetric_ne_badDataHash (r : Record) : r.toMetric ≠ .error .badDataHash := by
  have hmake : ∀ kind v, Metric.make r.id kind v ≠ .error .badDataHash := by
    intro kind v
    rw [Metric.make, Metric.ofValue]
    split <;> simp
  intro h
  rcases bind_eq_error h with hkind | ⟨kind, -, h⟩
  · rw [Kind.ofTag] at hkind
    split at hkind
    · cases hkind
    · split at hkind <;> cases hkind
  · cases kind with
    | gauge =>
      cases hvalue : r.value with
      | none => simp [hvalue] at h
      | some x => simp [hvalue, hmake] at h
    | counter =>
      cases hdelta : r.delta with
      | none => simp [hdelta] at h
      | some n => simp [hdelta, hmake] at h

/-- Reading a record. -/
theorem decodeRecord_ne_badDataHash (body : Octets) :
    decodeRecord body ≠ .error .badDataHash := by
  rw [decodeRecord]
  split
  · exact Record.toMetric_ne_badDataHash _
  · simp

/-- Reading records. -/
theorem decodeRecords_ne_badDataHash (body : Octets) :
    decodeRecords body ≠ .error .badDataHash := by
  rw [decodeRecords]
  split
  · intro h
    obtain ⟨r, -, hr⟩ := exists_of_mapM_eq_error h
    exact r.toMetric_ne_badDataHash hr
  · simp

/-! ### Envelopes -/

namespace Opener

variable {α : Type} {secret : Octets} {d : Option Rsa.Decryptor} {body content : Octets}

/-- A body that cannot be decrypted is a bad request. -/
theorem exists_badRequest_of_payload {o : Opener} {e : Failure} (h : o.payload body = .error e) :
    ∃ why, e = .badRequest why := by
  rw [payload] at h
  split at h
  · rename_i d _
    rw [Rsa.Decryptor.decrypt] at h
    split at h
    · cases h
      exact ⟨_, rfl⟩
    · -- one of the blocks is at fault
      cases hpieces : (Rsa.pieces d.key.size body).mapM d.piece with
      | ok pieces =>
        rw [hpieces] at h
        cases h
      | error e' =>
        rw [hpieces] at h
        cases h
        obtain ⟨block, -, hblock⟩ := exists_of_mapM_eq_error hpieces
        rw [Rsa.Decryptor.piece] at hblock
        split at hblock
        · cases hblock
        · cases hblock
          exact ⟨_, rfl⟩
  · cases h

/-- **An envelope is refused for its signature** exactly if its label does not show the one of
what is under the encryption, whatever that is and whatever it would be read as. -/
theorem bind_openBody_eq_badDataHash_iff {decode : Octets → Except Failure α}
    (hdecode : ∀ octets, decode octets ≠ .error .badDataHash) (label : EnvelopeLabel)
    (h : payload ⟨some secret, d⟩ body = .ok content) :
    (openBody ⟨some secret, d⟩ label body >>= decode) = .error .badDataHash ↔
      ¬label.Shows secret content := by
  have hopen : openBody ⟨some secret, d⟩ label body =
      (if label.Shows secret content then .ok () else .error .badDataHash) >>= fun _ =>
        unpackAs label content := by
    rw [openBody, h, ← checkSignature_eq secret d]
    rfl
  rw [hopen]
  by_cases hshows : label.Shows secret content
  · rw [if_pos hshows]
    refine iff_of_false (fun hrefused => ?_) (not_not.2 hshows)
    rcases bind_eq_error hrefused with hunpack | ⟨octets, -, hoctets⟩
    · exact unpackAs_ne_badDataHash label content hunpack
    · exact hdecode octets hoctets
  · rw [if_neg hshows]
    exact iff_of_true rfl hshows

/-- A batch is. -/
theorem decodeBatch_eq_badDataHash_iff (label : EnvelopeLabel)
    (h : payload ⟨some secret, d⟩ body = .ok content) :
    decodeBatch ⟨some secret, d⟩ label body = .error .badDataHash ↔ ¬label.Shows secret content :=
  bind_openBody_eq_badDataHash_iff decodeRecords_ne_badDataHash label h

/-- One metric is. -/
theorem decodeOne_eq_badDataHash_iff (label : EnvelopeLabel)
    (h : payload ⟨some secret, d⟩ body = .ok content) :
    decodeOne ⟨some secret, d⟩ label body = .error .badDataHash ↔ ¬label.Shows secret content :=
  bind_openBody_eq_badDataHash_iff decodeRecord_ne_badDataHash label h

end Opener

/-! ### Requests -/

namespace Collector

variable {secret : Octets} {d : Option Rsa.Decryptor} {r : Request} {content : Octets}

/-- **A collector admits a request**: it can decrypt the body, and the header shows the signature
of what it finds. -/
def Admits (c : Collector) (secret : Octets) (r : Request) : Prop :=
  ∃ content, c.opener.payload r.body = .ok content ∧ r.label.Shows secret content

instance (c : Collector) (secret : Octets) (r : Request) : Decidable (c.Admits secret r) :=
  match h : c.opener.payload r.body with
  | .error _ => .isFalse fun ⟨_, hpayload, _⟩ => nomatch h.symm.trans hpayload
  | .ok content =>
    decidable_of_iff (r.label.Shows secret content)
      ⟨fun hshows => ⟨content, h, hshows⟩, fun ⟨_, hpayload, hshows⟩ => by
        rwa [Except.ok.inj (h.symm.trans hpayload)]⟩

/-- Only from an admitted request is anything decoded. -/
theorem admits_of_decode {α : Type} {decode : Octets → Except Failure α} {a : α}
    (hdecode : ∀ octets, decode octets ≠ .error .badDataHash)
    (h : (Opener.openBody ⟨some secret, d⟩ r.label r.body >>= decode) = .ok a) :
    Admits ⟨⟨some secret, d⟩⟩ secret r := by
  cases hpayload : Opener.payload ⟨some secret, d⟩ r.body with
  | error e =>
    rw [Opener.openBody, hpayload] at h
    cases h
  | ok content =>
    refine ⟨content, hpayload, Decidable.byContradiction fun hshows => ?_⟩
    rw [(Opener.bind_openBody_eq_badDataHash_iff hdecode r.label hpayload).2 hshows] at h
    cases h

/-- **A request that is not admitted makes no call.** -/
theorem change?_eq_none_of_not_admits (h : ¬Admits ⟨⟨some secret, d⟩⟩ secret r) :
    change? ⟨⟨some secret, d⟩⟩ r = none := by
  refine Option.eq_none_iff_forall_ne_some.2 fun call hcall => h ?_
  rw [change?] at hcall
  split at hcall
  · split at hcall
    · obtain ⟨ms, hms, -⟩ := Option.map_eq_some_iff.1 hcall
      exact admits_of_decode decodeRecords_ne_badDataHash (eq_ok_of_toOption hms)
    · split at hcall
      · obtain ⟨n, hn, -⟩ := Option.map_eq_some_iff.1 hcall
        exact admits_of_decode decodeRecord_ne_badDataHash (eq_ok_of_toOption hn)
      · cases hcall
  · cases hcall

/-- A post that is refused for its signature is answered with nothing but that. -/
theorem respond_of_badDataHash {c : Collector} (hlength : r.body.length ≤ bodyLimit)
    (h : r.Posts .updates ∧ c.opener.decodeBatch r.label r.body = .error .badDataHash ∨
      r.Posts .update ∧ c.opener.decodeOne r.label r.body = .error .badDataHash) (s : Site) :
    c.respond r s = ((Response.ofFailure .badDataHash).signed c.opener.secret, s) := by
  rcases h with ⟨hposts, hrefused⟩ | ⟨hposts, hrefused⟩
  · rw [respond, route_eq_handle c r s hposts (by decide), handle_updates c r s hlength,
      postUpdates, hrefused]
    rfl
  · rw [respond, route_eq_handle c r s hposts (by decide), handle_update c r s hlength,
      postUpdate, hrefused]
    rfl

/-- **What a secret guards.** -/
structure Guarded (c : Collector) (secret : Octets) : Prop where
  /-- A body that cannot be decrypted is a bad request, whatever its label says. -/
  undecrypted {body : Octets} {e : Failure} : c.opener.payload body = .error e →
    (∃ why, e = .badRequest why) ∧ ∀ label, c.opener.decodeBatch label body = .error e ∧
      c.opener.decodeOne label body = .error e
  /-- Otherwise an envelope is refused for its signature exactly if its label does not show the one
  of what is under the encryption. -/
  refused_iff {body content : Octets} : c.opener.payload body = .ok content →
    ∀ label, (c.opener.decodeBatch label body = .error .badDataHash ↔
        ¬label.Shows secret content) ∧
      (c.opener.decodeOne label body = .error .badDataHash ↔ ¬label.Shows secret content)
  /-- Without encryption, a body put in the place of a signed one is refused, unless it has the same
  keyed digest. -/
  replaced {label : EnvelopeLabel} {body other : Octets} : c.opener.decryptor = none →
    label.Shows secret body → keyedDigest secret other ≠ keyedDigest secret body →
    c.opener.decodeBatch label other = .error .badDataHash ∧
      c.opener.decodeOne label other = .error .badDataHash
  /-- All posts that are refused for their signature are answered alike, and change nothing. -/
  respond_refused {r : Request} {content : Octets} : r.Posts .updates ∨ r.Posts .update →
    r.body.length ≤ bodyLimit → c.opener.payload r.body = .ok content →
    ¬r.label.Shows secret content →
    ∀ s, c.respond r s = ((Response.ofFailure .badDataHash).signed (some secret), s)
  /-- Whatever is asked, the site is in the end what it would be if only the admitted requests had
  been made. -/
  site_respondAll (rs : List Request) (s : Site) :
    (c.respondAll rs s).2 = (c.respondAll (rs.filter (c.Admits secret)) s).2

/-- **A secret guards the store**, with a key or without. -/
theorem guarded (secret : Octets) (d : Option Rsa.Decryptor) :
    Guarded ⟨⟨some secret, d⟩⟩ secret where
  undecrypted h := by
    refine ⟨Opener.exists_badRequest_of_payload h, fun label => ?_⟩
    rw [Opener.decodeBatch, Opener.decodeOne, Opener.openBody, h]
    exact ⟨rfl, rfl⟩
  refused_iff h label :=
    ⟨Opener.decodeBatch_eq_badDataHash_iff label h, Opener.decodeOne_eq_badDataHash_iff label h⟩
  replaced {label body other} hd hshows hdigest := by
    obtain rfl : d = none := hd
    have hother : ¬label.Shows secret other := fun h => hdigest (h.keyedDigest_eq hshows)
    exact ⟨(Opener.decodeBatch_eq_badDataHash_iff label rfl).2 hother,
      (Opener.decodeOne_eq_badDataHash_iff label rfl).2 hother⟩
  respond_refused {r content} hposts hlength hpayload hshows s := by
    refine respond_of_badDataHash hlength (hposts.imp (fun h => ⟨h, ?_⟩) fun h => ⟨h, ?_⟩) s
    · exact (Opener.decodeBatch_eq_badDataHash_iff r.label hpayload).2 hshows
    · exact (Opener.decodeOne_eq_badDataHash_iff r.label hpayload).2 hshows
  site_respondAll rs s := by
    rw [Collector.site_respondAll, Collector.site_respondAll, List.filterMap_filter]
    refine congrArg (List.foldl _ s) (List.filterMap_congr fun r _ => ?_)
    split
    · rfl
    · rename_i hadmits
      exact change?_eq_none_of_not_admits (by simpa using hadmits)

end Collector

end Telemetry
