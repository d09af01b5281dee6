import Mathlib
import Telemetry.Proofs.Requests
import Telemetry.Proofs.Signing

/-!
# Every answer with a body is signed

A collector with a secret signs what it sends behind everything else: whichever way a request went
- answered, refused by a route, too long, with a method that is not taken, to a path that nobody
serves - the response goes through the one place where the signature is put on. So what is sent is
compared with what the **router alone** would have sent in the same place, request by request
(`Collector.routeAll`): the router puts no signature on of its own, and nothing else about a
response or about the store is any different.

A signature is written in digits. So a header can always show it, and whoever reads it there has
what was written.

* `Collector.signature_route`: the router alone signs nothing;
* `shows_sign`, `textOfAscii_sign`: a signature in a header;
* `Response.SignedFor`, `Collector.signedFor_respondAll`: requests in turn, answered by the router
  alone and by the collector.
-/

namespace Telemetry

/-! ### The router alone -/

/-- What failed is told without a signature, and so is what went well if it has none. -/
theorem Response.signature_ofResult {result : Except Failure Response}
    (h : ∀ response, result = .ok response → response.signature = none) :
    (ofResult result).signature = none := by
  cases result with
  | ok response => exact h response rfl
  | error e => rfl

/-- A metric that is told is not signed yet. -/
theorem Response.signature_of_map_ofMetric {result : Except Failure Metric} {response : Response}
    (h : result.map ofMetric = .ok response) : response.signature = none := by
  cases result with
  | error e => cases h
  | ok m =>
    cases h
    rfl

namespace Collector

variable (c : Collector) (r : Request) (s : Site)

theorem signature_of_postUpdates {response : Response}
    (h : (c.postUpdates r s).1 = .ok response) : response.signature = none := by
  rw [postUpdates] at h
  split at h
  · cases h
  · split at h <;> cases h
    rfl

theorem signature_of_postUpdate {response : Response}
    (h : (c.postUpdate r s).1 = .ok response) : response.signature = none := by
  rw [postUpdate] at h
  split at h
  · cases h
  · split at h
    · exact Response.signature_of_map_ofMetric h
    · cases h

theorem signature_of_postValue {response : Response} (h : postValue r s = .ok response) :
    response.signature = none := by
  rw [postValue] at h
  obtain ⟨body, -, h⟩ := bind_eq_ok h
  split at h
  · cases h
  · obtain ⟨kind, -, h⟩ := bind_eq_ok h
    obtain ⟨m, -, h⟩ := bind_eq_ok h
    cases h
    rfl

theorem signature_handle (route : Route) : (c.handle route r s).1.signature = none := by
  by_cases hroute : route = .ping
  · unfold handle
    rw [if_pos hroute]
    rfl
  · by_cases hlength : r.body.length ≤ bodyLimit
    · cases route with
      | updates =>
        rw [handle_updates c r s hlength]
        exact Response.signature_ofResult fun _ => signature_of_postUpdates c r s
      | update =>
        rw [handle_update c r s hlength]
        exact Response.signature_ofResult fun _ => signature_of_postUpdate c r s
      | value =>
        rw [handle_value c r s hlength]
        exact Response.signature_ofResult fun _ => signature_of_postValue r s
      | ping => exact absurd rfl hroute
    · rw [handle_of_lt c r s hroute (Nat.not_le.1 hlength)]
      rfl

/-- **The router alone signs nothing.** -/
theorem signature_route : (c.route r s).1.signature = none := by
  rw [Collector.route]
  split
  · rfl
  · split
    · exact signature_handle c r s _
    · rfl

/-- The responses to requests in turn that the router alone would send, and the site behind them. -/
def routeAll (c : Collector) : List Request → Site → List Response × Site
  | [], s => ([], s)
  | r :: rs, s =>
    match c.route r s with
    | (response, s) =>
      match routeAll c rs s with
      | (responses, s) => (response :: responses, s)

end Collector

/-! ### Signatures in a header -/

/-- A digit is one octet, which a header can show and which is taken for it. -/
theorem exists_octet_of_digit : ∀ v < 16, ∃ b : UInt8,
    String.utf8EncodeChar (Nat.digitChar v) = [b] ∧ isHeaderCharacter b = true ∧
      Char.ofNat b.toNat = Nat.digitChar v := by
  have hdigit : ∀ v < 16, String.utf8EncodeChar (Nat.digitChar v) = [ascii (Nat.digitChar v)] ∧
      isHeaderCharacter (ascii (Nat.digitChar v)) = true ∧
      Char.ofNat (ascii (Nat.digitChar v)).toNat = Nat.digitChar v := by decide
  exact fun v hv => ⟨_, hdigit v hv⟩

/-- Where all characters are digits, their octets are shown and taken for them. -/
theorem shows_of_digits {cs : List Char} (h : ∀ c ∈ cs, ∃ v < 16, c = Nat.digitChar v) :
    (octetsOf (String.ofList cs)).all isHeaderCharacter = true ∧
      textOfAscii (octetsOf (String.ofList cs)) = String.ofList cs := by
  rw [octetsOf_eq_flatMap, String.toList_ofList, textOfAscii]
  have hchars : (cs.flatMap String.utf8EncodeChar).all isHeaderCharacter = true ∧
      (cs.flatMap String.utf8EncodeChar).map (fun b => Char.ofNat b.toNat) = cs := by
    induction cs with
    | nil => exact ⟨rfl, rfl⟩
    | cons c cs ih =>
      obtain ⟨v, hv, rfl⟩ := h c List.mem_cons_self
      obtain ⟨b, hb, hshown, hback⟩ := exists_octet_of_digit v hv
      obtain ⟨hall, hmap⟩ := ih fun c hc => h c (List.mem_cons_of_mem _ hc)
      rw [List.flatMap_cons, hb, List.singleton_append, List.all_cons, hshown, hall, List.map_cons,
        hback, hmap]
      exact ⟨rfl, rfl⟩
  exact ⟨hchars.1, congrArg String.ofList hchars.2⟩

/-- **A header can show every signature**, -/
theorem shows_sign (secret body : Octets) :
    (octetsOf (sign secret body)).all isHeaderCharacter = true :=
  (shows_of_digits fun _ => exists_digit_of_mem).1

/-- and it is read there as it was written. -/
theorem textOfAscii_sign (secret body : Octets) :
    textOfAscii (octetsOf (sign secret body)) = sign secret body :=
  (shows_of_digits fun _ => exists_digit_of_mem).2

/-! ### What is sent -/

/-- The name under which a header has the signature. -/
def signatureName : String := "hashsha256"

/-- The signatures in the header of a response. -/
def Response.signatures (response : Response) : List Octets :=
  (response.headers.filter fun p => p.1 == signatureName).map Prod.snd

/-- The named values of a response besides them. -/
def Response.otherHeaders (response : Response) : List (String × Octets) :=
  response.headers.filter fun p => p.1 != signatureName

/-- **What is sent**, signed or not, for a response of the router. -/
structure Response.SignedFor (secret : Option Octets) (plain sent : Response) : Prop where
  /-- The status is the same, -/
  status : sent.status = plain.status
  /-- the body is the same, -/
  body : sent.body = plain.body
  /-- and in the header everything is the same but the signature: the router has put none on. -/
  headers : sent.otherHeaders = plain.headers
  /-- With a secret exactly a response with a body is signed, -/
  signed : secret.isSome = true → (sent.signatures ≠ [] ↔ sent.body ≠ [])
  /-- once, -/
  once : sent.signatures.length ≤ 1
  /-- and what the header shows is the signature of the body. -/
  verifies : ∀ key, secret = some key → ∀ value ∈ sent.signatures,
    value.all isHeaderCharacter = true ∧ verify key sent.body (textOfAscii value) = .ok ()
  /-- Without a secret nothing is signed. -/
  unsigned : secret = none → sent.signatures = []

/-- The signature in a header stands in one place of it. -/
theorem Response.signatures_eq (response : Response) :
    response.signatures = (response.signature.map octetsOf).toList := by
  obtain ⟨status, body, type, signature, allow⟩ := response
  cases type <;> cases signature <;> cases allow <;> rfl

theorem Response.otherHeaders_eq (response : Response) :
    response.otherHeaders = ({ response with signature := none } : Response).headers := by
  obtain ⟨status, body, type, signature, allow⟩ := response
  cases type <;> cases signature <;> cases allow <;> rfl

/-- A response that nobody signed shows the same header without its signature. -/
theorem Response.otherHeaders_of_unsigned {plain : Response} (h : plain.signature = none) :
    plain.otherHeaders = plain.headers := by
  obtain ⟨status, body, type, signature, allow⟩ := plain
  cases h
  exact otherHeaders_eq _

/-- Where there is no secret or nothing to sign, a response is sent as it is. -/
theorem Response.signedFor_self {secret : Option Octets} {plain : Response}
    (h : plain.signature = none) (hbare : secret = none ∨ plain.body = []) :
    SignedFor secret plain plain := by
  have hnone : plain.signatures = [] := by
    rw [signatures_eq, h]
    rfl
  constructor
  case status | body => rfl
  case headers => exact otherHeaders_of_unsigned h
  case signed =>
    intro hsecret
    rcases hbare with rfl | hbody
    · cases hsecret
    · exact iff_of_false (not_not.2 hnone) (not_not.2 hbody)
  case once =>
    rw [hnone]
    exact Nat.zero_le 1
  case verifies =>
    intro key _ value hvalue
    rw [hnone] at hvalue
    cases hvalue
  case unsigned => exact fun _ => hnone

/-- What has a body is sent with its signature. -/
theorem Response.signedFor_sign (key : Octets) {plain : Response} (h : plain.signature = none)
    (hbody : plain.body ≠ []) :
    SignedFor (some key) plain { plain with signature := some (sign key plain.body) } := by
  have hone : ({ plain with signature := some (sign key plain.body) } : Response).signatures =
      [octetsOf (sign key plain.body)] := signatures_eq _
  constructor
  case status | body => rfl
  case headers => exact (otherHeaders_eq _).trans ((otherHeaders_eq plain).symm.trans
    (otherHeaders_of_unsigned h))
  case signed =>
    intro _
    rw [hone]
    exact iff_of_true (List.cons_ne_nil _ _) hbody
  case once =>
    rw [hone]
    exact Nat.le_refl 1
  case verifies =>
    rintro _ ⟨rfl⟩ value hvalue
    rw [hone, List.mem_singleton] at hvalue
    rw [hvalue, textOfAscii_sign]
    exact ⟨shows_sign key plain.body, verify_sign key plain.body⟩
  case unsigned => exact nofun

/-- **A response that is not signed yet** is signed as it should be. -/
theorem Response.signedFor_signed (secret : Option Octets) {plain : Response}
    (h : plain.signature = none) : SignedFor secret plain (plain.signed secret) := by
  cases secret with
  | none => exact signedFor_self h (.inl rfl)
  | some key =>
    rw [signed]
    by_cases hbody : plain.body = []
    · rw [if_pos (List.isEmpty_iff.2 hbody)]
      exact signedFor_self h (.inr hbody)
    · rw [if_neg fun he => hbody (List.isEmpty_iff.1 he)]
      exact signedFor_sign key h hbody

namespace Collector

/-- **Every answer of a collector is signed if there is a secret and something to sign**, whatever
was asked and whatever became of it. Else it is what the router alone would have sent, and so is the
site behind it. -/
theorem signedFor_respondAll (c : Collector) (rs : List Request) (s : Site) :
    List.Forall₂ (Response.SignedFor c.opener.secret) (c.routeAll rs s).1 (c.respondAll rs s).1 ∧
      (c.respondAll rs s).2 = (c.routeAll rs s).2 ∧
      ∀ settings d, ofSettings settings d = .ok c →
        c.opener.secret = settings.server.signatureKey.map octetsOf := by
  refine ⟨?_, ?_, ?_⟩
  · induction rs generalizing s with
    | nil => exact .nil
    | cons r rs ih =>
      exact .cons (Response.signedFor_signed _ (signature_route c r s)) (ih _)
  · induction rs generalizing s with
    | nil => rfl
    | cons r rs ih => exact ih _
  · intro settings d h
    obtain ⟨decryptor, -, h⟩ := bind_eq_ok h
    cases h
    rfl

end Collector

end Telemetry
