import Mathlib
import Telemetry.Envelope
import Telemetry.Proofs.Blocks
import Telemetry.Proofs.RecordText
import Telemetry.Proofs.Signing

/-!
# What is sealed is opened

An envelope is sealed from the inside out - records, compression, signature, encryption - and
opened from the outside in. Each step undoes its own, and they meet in the middle: decrypting
gives the compressed octets, which are the ones that were signed, so the check of the signature
passes before anything is unpacked. So whoever has the private key of the pair finds in an
envelope what was put into it, whether they know the secret and check it or not.

Nothing here depends on how well the sending side compresses. Of its compressor it takes two
facts: what it makes of a body unpacks to the body, and is not empty - nothing can be encrypted
of no octets.

* `Sealer.payload_enclose`: the octets under the encryption;
* `Sealer.openBody_enclose`: all steps;
* `Sealer.decode_encode`: the metrics of an envelope.
-/

namespace Telemetry

/-- A word occurs in every text that is put around it. -/
theorem occursIn_append (before word behind : List Char) :
    occursIn word (before ++ (word ++ behind)) = true := by
  induction before with
  | nil =>
    have hprefix : word.isPrefixOf (word ++ behind) = true :=
      List.isPrefixOf_iff_prefix.2 (List.prefix_append _ _)
    cases hbody : word ++ behind with
    | nil =>
      obtain ⟨rfl, -⟩ := List.append_eq_nil_iff.1 hbody
      rfl
    | cons c cs =>
      rw [hbody] at hprefix
      rw [List.nil_append, occursIn, hprefix, Bool.true_or]
  | cons c before ih => rw [List.cons_append, occursIn, ih, Bool.or_true]

/-- A coding in which the word occurs, among whatever else, says that the content is
compressed. -/
theorem saysGzip_append (before behind : String) :
    saysGzip (some (before ++ "gzip" ++ behind)) = true := by
  rw [saysGzip, String.toList_append, String.toList_append, List.append_assoc]
  exact occursIn_append _ _ _

/-! ### Sealing and opening -/

/-- The sending side with a compressor, and with a secret, the public key of a pair, both or
neither. -/
def Sealer.ofKeys [Compressor] (secret : Option Octets) (keys : Option Rsa.KeyPair) : Sealer :=
  ⟨secret, keys.map Rsa.KeyPair.encryptor⟩

/-- The receiving side with a secret, the private key of a pair, both or neither. -/
def Opener.ofKeys (secret : Option Octets) (keys : Option Rsa.KeyPair) : Opener :=
  ⟨secret, keys.map Rsa.KeyPair.decryptor⟩

section

variable [Compressor] (secret : Option Octets) (keys : Option Rsa.KeyPair) {seed : Nat → Octets}

/-- **What is under the encryption** is the compressed octets. -/
theorem Opener.payload_enclose (known : Option Octets) (hseed : ∀ i, (seed i).length = Rsa.hashSize)
    (octets : Octets) :
    (Opener.ofKeys known keys).payload ((Sealer.ofKeys secret keys).enclose seed octets).body =
      .ok (Compressor.compress octets) := by
  cases keys with
  | none => rfl
  | some pair =>
    simp only [payload, Opener.ofKeys, Sealer.enclose, Sealer.ofKeys, Option.map_some]
    exact pair.decrypt_encrypt hseed (Compressor.compress_ne_nil octets)

/-- **The signature is that of what is under the encryption**, so it passes the check of everyone
who knows the secret, and of everyone who checks nothing. -/
theorem Opener.checkSignature_enclose {known : Option Octets}
    (hknown : known = secret ∨ known = none) (coding : Option String) (octets : Octets) :
    (Opener.ofKeys known keys).checkSignature
        ⟨coding, ((Sealer.ofKeys secret keys).enclose seed octets).signature⟩
        (Compressor.compress octets) =
      .ok () := by
  rcases hknown with rfl | rfl
  · cases known with
    | none => rfl
    | some secret => exact verify_sign secret (Compressor.compress octets)
  · rfl

/-- **What is sealed is opened**: all steps together. -/
theorem Opener.openBody_enclose {known : Option Octets} (hknown : known = secret ∨ known = none)
    (hseed : ∀ i, (seed i).length = Rsa.hashSize) (before behind : String) (octets : Octets) :
    (Opener.ofKeys known keys).openBody
        ⟨some (before ++ "gzip" ++ behind),
          ((Sealer.ofKeys secret keys).enclose seed octets).signature⟩
        ((Sealer.ofKeys secret keys).enclose seed octets).body =
      .ok octets := by
  rw [openBody, payload_enclose secret keys known hseed]
  simp only [bind, Except.bind, checkSignature_enclose secret keys hknown]
  rw [unpackAs, if_pos (saysGzip_append before behind),
    Compressor.gunzip_compress]

end

/-! ### Metrics in envelopes -/

/-- **An envelope carries something**: it is signed if there is a secret, and everyone who has the
private key, and the secret if they check signatures, finds it in the envelope. -/
structure Envelope.Carries {α : Type} (e : Envelope) (secret : Option Octets)
    (keys : Option Rsa.KeyPair) (decode : Opener → EnvelopeLabel → Octets → Except Failure α)
    (content : α) : Prop where
  /-- There is a signature exactly if there is a secret. -/
  isSome_signature : e.signature.isSome = secret.isSome
  /-- What is decoded, if the envelope says among whatever else that it is compressed. -/
  decode_eq : ∀ known, known = secret ∨ known = none → ∀ before behind : String,
    decode (Opener.ofKeys known keys) ⟨some (before ++ "gzip" ++ behind), e.signature⟩ e.body =
      .ok content

/-- An envelope around octets carries what they are decoded to. -/
theorem Sealer.carries_enclose [Compressor] {α : Type} (secret : Option Octets)
    (keys : Option Rsa.KeyPair) {seed : Nat → Octets} (hseed : ∀ i, (seed i).length = Rsa.hashSize)
    {decode : Opener → EnvelopeLabel → Octets → Except Failure α}
    {decodeOctets : Octets → Except Failure α}
    (hdecode : ∀ o label body, decode o label body = o.openBody label body >>= decodeOctets)
    {octets : Octets} {content : α} (h : decodeOctets octets = .ok content) :
    ((Sealer.ofKeys secret keys).enclose seed octets).Carries secret keys decode content := by
  refine ⟨Option.isSome_map .., fun known hknown before behind => ?_⟩
  rw [hdecode, Opener.openBody_enclose secret keys hknown hseed]
  exact h

/-- **Metrics are decoded from the envelope they were encoded in**, in order: whatever their
names, with a secret or without, with keys or without, with any seeds and any compressor. There
is no envelope around no metrics. -/
theorem Sealer.decode_encode [Compressor] {ms : List Metric}
    (hms : ∀ m ∈ ms, m.value.ReadsBack) (secret : Option Octets) (keys : Option Rsa.KeyPair)
    {seed : Nat → Octets} (hseed : ∀ i, (seed i).length = Rsa.hashSize) :
    ((Sealer.ofKeys secret keys).encodeBatch seed ms = none ↔ ms = []) ∧
      (∀ e, (Sealer.ofKeys secret keys).encodeBatch seed ms = some e →
        e.Carries secret keys Opener.decodeBatch ms) ∧
      ∀ m ∈ ms, ((Sealer.ofKeys secret keys).encodeOne seed m).Carries secret keys
        Opener.decodeOne m := by
  refine ⟨?_, fun e he => ?_, fun m hm => ?_⟩
  · cases ms <;> simp [encodeBatch]
  · rw [encodeBatch] at he
    split at he
    · cases he
    · obtain rfl := Option.some.inj he
      exact carries_enclose secret keys hseed (fun _ _ _ => rfl) (decodeRecords_encodeRecords hms)
  · exact carries_enclose secret keys hseed (fun _ _ _ => rfl)
      (decodeRecord_encodeRecord (hms m hm))

/-- A level and a total, under names that have to be escaped. -/
def quotedNames : List Metric :=
  [⟨"say \"hi\"\n\\", .gauge (.ofFraction true 5 2), by decide⟩,
    ⟨"größe\t", .counter (-9223372036854775808), by decide⟩]

theorem carries_quotedNames :
    (∀ m ∈ quotedNames, m.value.ReadsBack) ∧
      (∀ _ : Nat, (List.replicate 64 (0 : UInt8)).length = Rsa.hashSize) ∧
      ∃ e, (Sealer.ofKeys (some (octetsOf "secret")) (some .sample)).encodeBatch
          (fun _ => List.replicate 64 0) quotedNames = some e ∧
        e.Carries (some (octetsOf "secret")) (some .sample) Opener.decodeBatch quotedNames := by
  have hms : ∀ m ∈ quotedNames, m.value.ReadsBack := by decide +kernel
  have hseed : ∀ _ : Nat, (List.replicate 64 (0 : UInt8)).length = Rsa.hashSize := fun _ => rfl
  obtain ⟨hnone, hsome, -⟩ :=
    Sealer.decode_encode hms (some (octetsOf "secret")) (some .sample) hseed
  have hne : quotedNames ≠ [] := List.cons_ne_nil _ _
  obtain ⟨e, he⟩ := Option.ne_none_iff_exists'.1 (mt hnone.1 hne)
  exact ⟨hms, hseed, e, he, hsome e he⟩

end Telemetry
