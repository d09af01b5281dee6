import Mathlib
import Telemetry.Rsa.Cipher
import Telemetry.Proofs.Padding

/-!
# One key undoes the other

A block is a number below the modulus, raised to the public exponent, and the private exponent
undoes that. The reason is the one that the numbers of a private key are checked for: the product
of the exponents is one modulo each prime less one, so that raising to it changes nothing modulo
either prime, and nothing modulo their product. A padded text begins with a zero, which keeps it
below the modulus, and numbers below the modulus have a place in the width of a block. So the text
of a block comes back from it.

* `ofBigEndian_bigEndian`, `bigEndian_ofBigEndian`: numbers and the octets that write them;
* `powMod_eq`, `raise_raise`: powers;
* `KeyPair`: a public and a private key of which the one gives back what the other encrypted;
* `KeyPair.ofPrimes`: the keys of two different primes are such a pair.
-/

namespace Telemetry.Rsa

/-! ### Numbers as octets -/

theorem ofBigEndian_cons (b : UInt8) (bs : Octets) :
    ofBigEndian (b :: bs) = b.toNat * 256 ^ bs.length + ofBigEndian bs := by
  have hfold : ∀ (n : Nat) (cs : Octets), cs.foldl (fun n c => 256 * n + c.toNat) n =
      n * 256 ^ cs.length + ofBigEndian cs := by
    intro n cs
    induction cs generalizing n with
    | nil => simp [ofBigEndian]
    | cons c cs ih =>
      have hcons : ofBigEndian (c :: cs) =
          cs.foldl (fun n c => 256 * n + c.toNat) (256 * 0 + c.toNat) := rfl
      rw [List.foldl_cons, ih, hcons, ih, List.length_cons, pow_succ]
      ring
  rw [ofBigEndian, List.foldl_cons, hfold, Nat.mul_zero, Nat.zero_add]

theorem ofBigEndian_lt (bs : Octets) : ofBigEndian bs < 256 ^ bs.length := by
  induction bs with
  | nil => exact Nat.one_pos
  | cons b bs ih =>
    have hb := b.toNat_lt
    rw [ofBigEndian_cons, List.length_cons, pow_succ]
    nlinarith

/-- Numbers tell octets of one length apart. -/
theorem ofBigEndian_injective {bs cs : Octets} (hlength : bs.length = cs.length)
    (h : ofBigEndian bs = ofBigEndian cs) : bs = cs := by
  induction bs generalizing cs with
  | nil => exact (List.length_eq_zero_iff.1 hlength.symm).symm
  | cons b bs ih =>
    cases cs with
    | nil => cases hlength
    | cons c cs =>
      have hrest : bs.length = cs.length := Nat.succ.inj hlength
      rw [ofBigEndian_cons, ofBigEndian_cons, hrest] at h
      have hb := ofBigEndian_lt bs
      have hc := ofBigEndian_lt cs
      rw [hrest] at hb
      have hpos : 0 < 256 ^ cs.length := Nat.pow_pos (by decide)
      -- the number is cut in front of its last octets
      have hhead := congrArg (· / 256 ^ cs.length) h
      have htail := congrArg (· % 256 ^ cs.length) h
      simp only [Nat.mul_comm _ (256 ^ cs.length), Nat.mul_add_div hpos, Nat.mul_add_mod,
        Nat.div_eq_of_lt hb, Nat.div_eq_of_lt hc, Nat.mod_eq_of_lt hb, Nat.mod_eq_of_lt hc,
        Nat.add_zero] at hhead htail
      rw [UInt8.toNat_inj.1 hhead, ih hrest htail]

theorem length_bigEndian (count n : Nat) : (Sha512.bigEndian count n).length = count := by
  rw [Sha512.bigEndian, List.length_map, List.length_reverse, List.length_range]

theorem bigEndian_succ (count n : Nat) :
    Sha512.bigEndian (count + 1) n =
      (n >>> (8 * count)).toUInt8 :: Sha512.bigEndian count n := by
  rw [Sha512.bigEndian, List.range_succ, List.reverse_append]
  rfl

/-- What fits into so many octets is read back from them. -/
theorem ofBigEndian_bigEndian (count n : Nat) :
    ofBigEndian (Sha512.bigEndian count n) = n % 256 ^ count := by
  induction count with
  | zero => simp [Sha512.bigEndian, ofBigEndian, Nat.mod_one]
  | succ count ih =>
    have hpow : 2 ^ (8 * count) = 256 ^ count := by rw [pow_mul]; rfl
    have hoctet : ((n >>> (8 * count)).toUInt8).toNat = n / 256 ^ count % 256 := by
      rw [Nat.toUInt8, UInt8.toNat_ofNat', Nat.shiftRight_eq_div_pow, hpow]
    rw [bigEndian_succ, ofBigEndian_cons, length_bigEndian, ih, hoctet, pow_succ, Nat.mod_mul]
    ring

/-- **Octets come back from the number that they write.** -/
theorem bigEndian_ofBigEndian {bs : Octets} {count : Nat} (h : bs.length = count) :
    Sha512.bigEndian count (ofBigEndian bs) = bs := by
  subst h
  refine ofBigEndian_injective (length_bigEndian ..) ?_
  rw [ofBigEndian_bigEndian, Nat.mod_eq_of_lt (ofBigEndian_lt bs)]

theorem pow_256 (m : Nat) : 256 ^ m = 2 ^ (8 * m) := by
  rw [pow_mul]
  rfl

/-- A modulus fits into its own width. -/
theorem PublicKey.modulus_lt (key : PublicKey) : key.modulus < 256 ^ key.size := by
  unfold PublicKey.size
  split
  · rename_i hzero
    rw [hzero]
    exact Nat.one_pos
  · rename_i hpos
    rw [pow_256]
    exact (Nat.log2_lt hpos).1 (by omega)

/-- It does not fit into one octet less. -/
theorem PublicKey.le_modulus {key : PublicKey} {k : Nat} (h : key.size = k + 1) :
    256 ^ k ≤ key.modulus := by
  unfold PublicKey.size at h
  split at h
  · cases h
  · rename_i hpos
    rw [pow_256]
    exact (Nat.le_log2 hpos).1 (by omega)

/-- Numbers below the modulus are read back from its width. -/
theorem PublicKey.ofBigEndian_bigEndian {key : PublicKey} {n : Nat} (hn : n < key.modulus) :
    ofBigEndian (Sha512.bigEndian key.size n) = n := by
  rw [Rsa.ofBigEndian_bigEndian]
  exact Nat.mod_eq_of_lt (hn.trans key.modulus_lt)

/-- A padded text begins with a zero, so it is below every modulus of its width. -/
theorem ofBigEndian_pad_lt {key : PublicKey} {seed text : Octets} (hseed : seed.length = hashSize)
    (h : text.length + paddingSize ≤ key.size) :
    ofBigEndian (pad key.size seed text) < key.modulus := by
  have hpadding : paddingSize = 130 := by decide
  obtain ⟨k, hk⟩ : ∃ k, key.size = k + 1 := ⟨key.size - 1, by omega⟩
  have hlength := length_pad hseed h
  rw [pad_eq_cons, List.length_cons, hk] at hlength
  have hbehind := ofBigEndian_lt (maskWith seed (spin (maskedOf (k + 1) seed text) hashSize) ++
    maskedOf (k + 1) seed text)
  rw [Nat.succ.inj hlength] at hbehind
  rw [pad_eq_cons, ofBigEndian_cons, hk, UInt8.toNat_zero, Nat.zero_mul, Nat.zero_add]
  exact hbehind.trans_le (PublicKey.le_modulus hk)

/-! ### Powers -/

/-- **Squaring works out powers**, if there is a turn for each bit of the exponent. -/
theorem powMod_eq (modulus : Nat) {fuel exponent : Nat} (h : exponent < 2 ^ fuel) (base : Nat) :
    powMod modulus fuel base exponent = base ^ exponent % modulus := by
  induction fuel generalizing base exponent with
  | zero =>
    obtain rfl : exponent = 0 := by simpa using h
    rw [powMod, pow_zero]
  | succ fuel ih =>
    rw [pow_succ] at h
    have hsquare : (base * base % modulus) ^ (exponent / 2) % modulus =
        base ^ (2 * (exponent / 2)) % modulus := by
      rw [← Nat.pow_mod, pow_mul, sq]
    rw [powMod, ih (by omega), hsquare]
    split
    · rename_i hzero
      rw [hzero, pow_zero]
    · have hsplit := Nat.div_add_mod exponent 2
      rcases Nat.mod_two_eq_zero_or_one exponent with heven | hodd
      · rw [if_neg (by omega)]
        rw [heven, Nat.add_zero] at hsplit
        rw [hsplit]
      · rw [if_pos hodd, Nat.mod_mul_mod, ← pow_succ]
        rw [hodd] at hsplit
        rw [hsplit]

theorem PublicKey.raise_eq (key : PublicKey) (base exponent : Nat) :
    key.raise base exponent = base ^ exponent % key.modulus := by
  rw [raise, powMod_eq key.modulus Nat.lt_log2_self, ← Nat.pow_mod]

/-- Raising to a power that is one modulo a prime less one changes nothing modulo that prime. -/
theorem pow_modEq_self {p k : Nat} (hp : p.Prime) (hk : k % (p - 1) = 1) (x : Nat) :
    x ^ k ≡ x [MOD p] := by
  by_cases hdvd : p ∣ x
  · have hpos : k ≠ 0 := by
      rintro rfl
      simp at hk
    have hzero : x ≡ 0 [MOD p] := (Nat.modEq_zero_iff_dvd).2 hdvd
    calc x ^ k ≡ 0 ^ k [MOD p] := hzero.pow k
      _ = 0 := zero_pow hpos
      _ ≡ x [MOD p] := hzero.symm
  · have hcoprime : IsCoprime (x : Int) p :=
      Nat.isCoprime_iff_coprime.2 ((Nat.Prime.coprime_iff_not_dvd hp).2 hdvd).symm
    have hone : x ^ (p - 1) ≡ 1 [MOD p] := by
      have hint := Int.ModEq.pow_card_sub_one_eq_one hp hcoprime
      exact_mod_cast hint
    calc x ^ k = (x ^ (p - 1)) ^ (k / (p - 1)) * x := by
          rw [← pow_mul, ← pow_succ]
          have hsplit := Nat.div_add_mod k (p - 1)
          rw [hk] at hsplit
          rw [hsplit]
      _ ≡ 1 ^ (k / (p - 1)) * x [MOD p] := (hone.pow _).mul_right x
      _ = x := by rw [one_pow, one_mul]

/-- **The exponents of a key undo each other** if its two primes are different. -/
theorem PrivateKey.raise_raise {key : PrivateKey} {p q : Nat} (hp : p.Prime) (hq : q.Prime)
    (hne : p ≠ q) (hfits : key.fits p q = true) {x : Nat} (hx : x < key.modulus) :
    key.raise (key.raise x key.exponent) key.secret = x := by
  simp only [fits, Bool.and_eq_true, beq_iff_eq] at hfits
  obtain ⟨⟨⟨-, hmodulus⟩, hpexp⟩, hqexp⟩ := hfits
  have hboth : x ^ (key.exponent * key.secret) ≡ x [MOD p * q] :=
    (Nat.modEq_and_modEq_iff_modEq_mul ((Nat.coprime_primes hp hq).2 hne)).1
      ⟨pow_modEq_self hp hpexp x, pow_modEq_self hq hqexp x⟩
  rw [PublicKey.raise_eq, PublicKey.raise_eq, ← Nat.pow_mod, ← pow_mul]
  rw [hmodulus] at hboth
  exact Eq.trans hboth (Nat.mod_eq_of_lt (hmodulus ▸ hx))

/-! ### Pairs of keys -/

/-- A public and a private key of one width, of which the one gives back what the other made a
block of. -/
structure KeyPair where
  /-- The public side. -/
  encryptor : Encryptor
  /-- The private side. -/
  decryptor : Decryptor
  /-- Their blocks have one width. -/
  size_eq : decryptor.key.size = encryptor.key.size
  /-- A text for which there is room comes back from its block, whatever the seed. -/
  piece_block : ∀ {seed piece : Octets}, seed.length = hashSize →
    piece.length ≤ room encryptor.key → decryptor.piece (encryptor.block seed piece) = .ok piece

/-- A block is as wide as the modulus. -/
theorem Encryptor.length_block (e : Encryptor) (seed piece : Octets) :
    (e.block seed piece).length = e.key.size := length_bigEndian ..

/-- **The text of a block comes back** with the numbers that a private key of two different
primes has. -/
theorem Decryptor.piece_block_of_primes (d : Decryptor) {p q : Nat} (hp : p.Prime)
    (hq : q.Prime) (hne : p ≠ q) (hfits : d.key.fits p q = true) {seed piece : Octets}
    (hseed : seed.length = hashSize) (hpiece : piece.length ≤ room d.key.toPublicKey) :
    d.piece ((⟨d.key.toPublicKey, d.hasRoom⟩ : Encryptor).block seed piece) = .ok piece := by
  have hfill : piece.length + paddingSize ≤ d.key.size := by
    have hroom := d.hasRoom
    rw [room] at hpiece hroom
    omega
  have hpadded : ofBigEndian (pad d.key.size seed piece) < d.key.modulus :=
    ofBigEndian_pad_lt hseed hfill
  have hbelow : d.key.raise (ofBigEndian (pad d.key.size seed piece)) d.key.exponent <
      d.key.modulus := by
    rw [PublicKey.raise_eq]
    exact Nat.mod_lt _ (Nat.zero_lt_of_lt hpadded)
  have hblock : ofBigEndian ((⟨d.key.toPublicKey, d.hasRoom⟩ : Encryptor).block seed piece) =
      d.key.raise (ofBigEndian (pad d.key.size seed piece)) d.key.exponent :=
    PublicKey.ofBigEndian_bigEndian hbelow
  have hback := PrivateKey.raise_raise hp hq hne hfits hpadded
  unfold Decryptor.piece Decryptor.piece?
  simp only [hblock, hback, if_neg (Nat.not_le.2 hbelow),
    bigEndian_ofBigEndian (length_pad hseed hfill), unpad?_pad hseed hfill]

/-- **The keys of two different primes are a pair.** -/
def KeyPair.ofPrimes (d : Decryptor) {p q : Nat} (hp : p.Prime) (hq : q.Prime) (hne : p ≠ q)
    (hfits : d.key.fits p q = true) : KeyPair where
  encryptor := ⟨d.key.toPublicKey, d.hasRoom⟩
  decryptor := d
  size_eq := rfl
  piece_block := d.piece_block_of_primes hp hq hne hfits

/-! ### A pair of keys -/

/-- **Lucas's test** for a prime times a power of two, plus one: some number has all of its order,
and none of the proper parts of it that leave out one prime. -/
theorem prime_of_powMod {c : Nat} (hc : c.Prime) (k fuel a : Nat)
    (hfuel : c * 2 ^ k < 2 ^ fuel)
    (hall : powMod (c * 2 ^ k + 1) fuel a (c * 2 ^ k) = 1)
    (hhalf : powMod (c * 2 ^ k + 1) fuel a (c * 2 ^ k / 2) ≠ 1)
    (hpart : powMod (c * 2 ^ k + 1) fuel a (c * 2 ^ k / c) ≠ 1) : (c * 2 ^ k + 1).Prime := by
  have hone : 1 < c * 2 ^ k + 1 :=
    Nat.succ_lt_succ (Nat.mul_pos hc.pos (Nat.two_pow_pos k))
  have hiff : ∀ n, n ≤ c * 2 ^ k →
      (((a : ZMod (c * 2 ^ k + 1)) ^ n = 1) ↔ powMod (c * 2 ^ k + 1) fuel a n = 1) := by
    intro n hn
    have hcast := ZMod.natCast_eq_natCast_iff' (a ^ n) 1 (c * 2 ^ k + 1)
    rw [Nat.cast_pow, Nat.cast_one, Nat.mod_eq_of_lt hone] at hcast
    rw [powMod_eq _ (Nat.lt_of_le_of_lt hn hfuel), hcast]
  refine lucas_primality _ (a : ZMod (c * 2 ^ k + 1)) ?_ fun r hr hdvd => ?_
  · rw [Nat.add_sub_cancel, hiff _ (Nat.le_refl _)]
    exact hall
  · rw [Nat.add_sub_cancel] at hdvd ⊢
    rw [ne_eq, hiff _ (Nat.div_le_self ..)]
    rcases (Nat.Prime.dvd_mul hr).1 hdvd with hdvd | hdvd
    · rw [(Nat.prime_dvd_prime_iff_eq hr hc).1 hdvd]
      exact hpart
    · rw [(Nat.prime_dvd_prime_iff_eq hr Nat.prime_two).1 (hr.dvd_of_dvd_pow hdvd)]
      exact hhalf

theorem prime_three_mul : (3 * 2 ^ 438 + 1).Prime :=
  prime_of_powMod Nat.prime_three 438 440 5 (by decide +kernel) (by decide +kernel)
    (by decide +kernel) (by decide +kernel)

theorem prime_seven_mul : (7 * 2 ^ 616 + 1).Prime :=
  prime_of_powMod (by decide) 616 619 3 (by decide +kernel) (by decide +kernel)
    (by decide +kernel) (by decide +kernel)

/-- The private key of these two primes, for blocks of 133 octets. -/
def sampleDecryptor : Decryptor where
  key := ⟨⟨(3 * 2 ^ 438 + 1) * (7 * 2 ^ 616 + 1), 65537⟩, (1 + 3133 * (21 * 2 ^ 616)) / 65537⟩
  hasRoom := by decide +kernel

/-- Keys of 1059 bits. -/
def KeyPair.sample : KeyPair :=
  .ofPrimes sampleDecryptor prime_three_mul prime_seven_mul (by decide +kernel) (by decide +kernel)

end Telemetry.Rsa
