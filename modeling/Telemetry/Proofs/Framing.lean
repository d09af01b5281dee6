import Mathlib
import Telemetry.Proofs.Blocks
import Telemetry.Proofs.Results

/-!
# How encrypted bodies are framed

Two lengths are at work. A body is cut where the padding leaves no more room, and what it is
encrypted to is cut at the width of the modulus, by someone who knows nothing of the body. What is
said of either cut is said by number: a text falls into as many pieces as its length divided by
that of a piece, rounded up, and the piece with a number begins at that multiple of the length
(`pieces_eq_map`). So the length of an encrypted body is told by that of the body, and an encrypted
body of whatever origin is decrypted exactly if each of the blocks in it is, one after the other.
A single one that is not, wherever it stands, and nothing is decrypted at all.

* `pieces_eq_map`, `length_pieces`: a text cut by number;
* `Encryptor.length_encrypt`: how long an encrypted body is;
* `Decryptor.decrypt_eq_ok_iff`, `Decryptor.decrypt_of_piece?_eq_none`: block by block;
* `KeyPair.frames`: all of this together, for whatever pair of keys.
-/

namespace Telemetry.Rsa

/-! ### Cutting by number -/

/-- The piece with a number. -/
def pieceAt (length : Nat) (text : Octets) (i : Nat) : Octets :=
  (text.drop (length * i)).take length

theorem pieceAt_zero (length : Nat) (text : Octets) : pieceAt length text 0 = text.take length := by
  rw [pieceAt, Nat.mul_zero, List.drop_zero]

theorem pieceAt_succ (length : Nat) (text : Octets) (i : Nat) :
    pieceAt length text (i + 1) = pieceAt length (text.drop length) i := by
  rw [pieceAt, pieceAt, List.drop_drop, Nat.mul_succ, Nat.add_comm]

/-- One piece more than without the first one. -/
theorem ceilDiv_eq_succ {count length : Nat} (hlength : 0 < length) (hcount : 0 < count) :
    count ⌈/⌉ length = (count - length) ⌈/⌉ length + 1 := by
  have hpred : count + length - 1 = (count - 1) + length := by omega
  rw [Nat.ceilDiv_eq_add_pred_div, Nat.ceilDiv_eq_add_pred_div, hpred,
    Nat.add_div_right _ hlength]
  rcases Nat.le_total length count with h | h
  · rw [Nat.sub_add_cancel h]
  · rw [Nat.sub_eq_zero_of_le h, Nat.zero_add, Nat.div_eq_of_lt (by omega),
      Nat.div_eq_of_lt (by omega)]

/-- **A text is cut by number.** -/
theorem pieces_eq_map {length : Nat} (hlength : 0 < length) (text : Octets) :
    pieces length text = (List.range (text.length ⌈/⌉ length)).map (pieceAt length text) := by
  induction hn : text.length using Nat.strong_induction_on generalizing text with
  | _ n ih =>
    by_cases h : text = []
    · subst h hn
      rw [pieces_nil, List.length_nil, zero_ceilDiv, List.range_zero, List.map_nil]
    · have hpos : 0 < text.length := List.length_pos_iff.2 h
      have hrest := ih (text.drop length).length (by rw [List.length_drop]; omega) _ rfl
      rw [pieces_of_ne_nil hlength h, hrest, ← hn, ceilDiv_eq_succ hlength hpos,
        List.range_succ_eq_map, List.map_cons, List.map_map, pieceAt_zero, List.length_drop]
      congr 2
      exact funext fun i => (pieceAt_succ length text i).symm

theorem length_pieces {length : Nat} (hlength : 0 < length) (text : Octets) :
    (pieces length text).length = text.length ⌈/⌉ length := by
  rw [pieces_eq_map hlength, List.length_map, List.length_range]

/-- Where the length is a multiple, rounding up changes nothing. -/
theorem ceilDiv_of_mod_eq_zero {count length : Nat} (hlength : 0 < length)
    (h : count % length = 0) : count ⌈/⌉ length = count / length := by
  obtain ⟨n, rfl⟩ := Nat.dvd_of_mod_eq_zero h
  rw [Nat.ceilDiv_eq_add_pred_div, Nat.mul_div_cancel_left _ hlength, Nat.add_sub_assoc hlength,
    Nat.mul_add_div hlength, Nat.div_eq_of_lt (Nat.sub_lt hlength Nat.one_pos), Nat.add_zero]

/-- No piece is empty. -/
theorem ne_nil_of_mem_pieces {length : Nat} (hlength : 0 < length) {text piece : Octets}
    (h : piece ∈ pieces length text) : piece ≠ [] := by
  induction hn : text.length using Nat.strong_induction_on generalizing text with
  | _ n ih =>
    by_cases htext : text = []
    · subst htext
      cases h
    · have hpos : 0 < text.length := List.length_pos_iff.2 htext
      rw [pieces_of_ne_nil hlength htext] at h
      rcases List.mem_cons.1 h with rfl | h
      · rw [← List.length_pos_iff, List.length_take]
        omega
      · exact ih _ (by rw [List.length_drop]; omega) h rfl

/-- What holds of each number and the element in its place. -/
theorem forall₂_map_range_iff {α β : Type} {R : α → β → Prop} {f : Nat → α} {n : Nat}
    {ys : List β} : List.Forall₂ R ((List.range n).map f) ys ↔
      ys.length = n ∧ ∀ i (hi : i < ys.length), R (f i) ys[i] := by
  simp only [List.forall₂_iff_get, List.length_map, List.length_range, List.get_eq_getElem,
    List.getElem_map, List.getElem_range]
  constructor
  · rintro ⟨rfl, h⟩
    exact ⟨rfl, fun i hi => h i hi hi⟩
  · rintro ⟨rfl, h⟩
    exact ⟨rfl, fun i _ hi => h i hi⟩

/-! ### Loading keys -/

theorem paddingSize_eq : paddingSize = 130 := by decide

/-- There is room in a block of more octets than the padding takes. -/
theorem room_pos_iff {key : PublicKey} : 0 < room key ↔ 131 ≤ key.size := by
  rw [room, paddingSize_eq]
  omega

theorem Encryptor.exists_ofKey_iff {key : PublicKey} :
    (∃ e, Encryptor.ofKey key = .ok e) ↔ 131 ≤ key.size := by
  rw [← room_pos_iff, ofKey]
  split <;> simp [*]

theorem Decryptor.exists_ofKey_iff {key : PrivateKey} :
    (∃ d, Decryptor.ofKey key = .ok d) ↔ 131 ≤ key.size := by
  rw [← @room_pos_iff key.toPublicKey, ofKey]
  split <;> simp [*]

/-! ### Encrypting -/

/-- **An encrypted body is as long as its blocks**, whatever the seeds. -/
theorem Encryptor.length_encrypt (e : Encryptor) (seed : Nat → Octets) (body : Octets) :
    (e.encrypt seed body).length = (body.length ⌈/⌉ room e.key) * e.key.size := by
  rw [encrypt_eq_flatten, length_flatten_blocks fun b hb => length_of_mem_blocks hb, blocks,
    List.length_mapIdx, length_pieces e.hasRoom]

/-! ### Decrypting -/

namespace Decryptor

variable (d : Decryptor) {c : Octets}

theorem size_pos : 0 < d.key.size := by
  have h := room_pos_iff.1 d.hasRoom
  omega

theorem decrypt_of_unframed (h : c = [] ∨ c.length % d.key.size ≠ 0) :
    d.decrypt c = .error (.badRequest ("ciphertext length " ++ toString c.length ++
      " is not a multiple of " ++ toString d.key.size)) := by
  rw [decrypt, if_pos (h.imp_left List.isEmpty_iff.2)]

/-- What is framed is decrypted block by block. -/
theorem decrypt_of_framed (hne : c ≠ []) (hframed : c.length % d.key.size = 0) :
    d.decrypt c = (((List.range (c.length / d.key.size)).map (pieceAt d.key.size c)).mapM
      d.piece).map List.flatten := by
  rw [decrypt, if_neg (by simp [hne, hframed]), pieces_eq_map d.size_pos,
    ceilDiv_of_mod_eq_zero d.size_pos hframed]

theorem piece_eq_ok_iff {block text : Octets} :
    d.piece block = .ok text ↔ d.piece? block = some text := by
  rw [piece]
  cases d.piece? block <;> simp

/-- **A framed body is decrypted** exactly if each of its blocks is, to the texts of these blocks,
one after the other. -/
theorem decrypt_eq_ok_iff (hne : c ≠ []) (hframed : c.length % d.key.size = 0) {body : Octets} :
    d.decrypt c = .ok body ↔ ∃ texts : List Octets, texts.length = c.length / d.key.size ∧
      (∀ i (hi : i < texts.length), d.piece? (pieceAt d.key.size c i) = some texts[i]) ∧
        body = texts.flatten := by
  have hpieces (texts : List Octets) :
      ((List.range (c.length / d.key.size)).map (pieceAt d.key.size c)).mapM d.piece = .ok texts ↔
        texts.length = c.length / d.key.size ∧
          ∀ i (hi : i < texts.length), d.piece? (pieceAt d.key.size c i) = some texts[i] := by
    rw [mapM_eq_ok_iff, forall₂_map_range_iff]
    simp only [piece_eq_ok_iff]
  rw [d.decrypt_of_framed hne hframed]
  constructor
  · intro h
    cases hall : ((List.range (c.length / d.key.size)).map (pieceAt d.key.size c)).mapM d.piece with
    | error e =>
      rw [hall] at h
      cases h
    | ok texts =>
      rw [hall] at h
      obtain ⟨hlength, htexts⟩ := (hpieces texts).1 hall
      exact ⟨texts, hlength, htexts, (Except.ok.inj h).symm⟩
  · rintro ⟨texts, hlength, htexts, rfl⟩
    rw [(hpieces texts).2 ⟨hlength, htexts⟩]
    rfl

/-- **A block that is none spoils the whole body**, wherever it stands. -/
theorem decrypt_of_piece?_eq_none (hne : c ≠ []) (hframed : c.length % d.key.size = 0) {i : Nat}
    (hi : i < c.length / d.key.size) (h : d.piece? (pieceAt d.key.size c i) = none) :
    d.decrypt c = .error (.badRequest "decrypt failed: decryption error") := by
  have hpiece : d.piece (pieceAt d.key.size c i) =
      .error (.badRequest "decrypt failed: decryption error") := by
    rw [piece, h]
  have hmem : pieceAt d.key.size c i ∈
      (List.range (c.length / d.key.size)).map (pieceAt d.key.size c) :=
    List.mem_map_of_mem (List.mem_range.2 hi)
  rw [d.decrypt_of_framed hne hframed]
  cases hall : ((List.range (c.length / d.key.size)).map (pieceAt d.key.size c)).mapM d.piece with
  | ok texts =>
    obtain ⟨text, htext⟩ := exists_of_mapM_eq_ok hall hmem
    cases hpiece.symm.trans htext
  | error e =>
    -- all blocks that are none fail alike
    obtain ⟨block, -, hblock⟩ := exists_of_mapM_eq_error hall
    rw [piece] at hblock
    split at hblock
    · cases hblock
    · cases hblock
      rfl

end Decryptor

/-! ### Both sides -/

/-- **How a pair of keys frames bodies**, with some seeds. -/
structure KeyPair.Frames (keys : KeyPair) (seed : Nat → Octets) : Prop where
  /-- Keys are loaded exactly if there is room in a block besides the padding, -/
  loaded_iff : (∀ key, (∃ e, Encryptor.ofKey key = .ok e) ↔ 131 ≤ key.size) ∧
    ∀ key, (∃ d, Decryptor.ofKey key = .ok d) ↔ 131 ≤ key.size
  /-- as these have been, and their blocks have one width. -/
  size_eq : 131 ≤ keys.encryptor.key.size ∧ keys.decryptor.key.size = keys.encryptor.key.size
  /-- Whatever is encrypted, it is cut into pieces for which there is room in a block, and of which
  none is empty, -/
  room_of_mem : ∀ body, ∀ piece ∈ pieces (room keys.encryptor.key) body,
    piece ≠ [] ∧ piece.length ≤ keys.encryptor.key.size - 130
  /-- and as long as its length divided by this room, rounded up, times the width. -/
  length_encrypt : ∀ body, (keys.encryptor.encrypt seed body).length =
    (body.length ⌈/⌉ (keys.encryptor.key.size - 130)) * keys.encryptor.key.size
  /-- It comes back if it is not empty; -/
  decrypt_encrypt : ∀ body ≠ [],
    keys.decryptor.decrypt (keys.encryptor.encrypt seed body) = .ok body
  /-- if it is, there is nothing that could come back. -/
  encrypt_nil : keys.encryptor.encrypt seed [] = []
  /-- Nothing is decrypted of octets that are none or no whole number of blocks, -/
  unframed : ∀ c : Octets, c = [] ∨ c.length % keys.decryptor.key.size ≠ 0 →
    keys.decryptor.decrypt c = .error (.badRequest ("ciphertext length " ++ toString c.length ++
      " is not a multiple of " ++ toString keys.decryptor.key.size))
  /-- and of others exactly the texts of their blocks, one after the other, if each of them has
  one. -/
  framed : ∀ c : Octets, c ≠ [] → c.length % keys.decryptor.key.size = 0 → ∀ body,
    keys.decryptor.decrypt c = .ok body ↔
      ∃ texts : List Octets, texts.length = c.length / keys.decryptor.key.size ∧
        (∀ i (hi : i < texts.length),
          keys.decryptor.piece? (pieceAt keys.decryptor.key.size c i) = some texts[i]) ∧
        body = texts.flatten
  /-- One block without a text, wherever it stands, and nothing is decrypted. -/
  spoiled : ∀ c : Octets, c ≠ [] → c.length % keys.decryptor.key.size = 0 →
    (∃ i < c.length / keys.decryptor.key.size,
      keys.decryptor.piece? (pieceAt keys.decryptor.key.size c i) = none) →
    keys.decryptor.decrypt c = .error (.badRequest "decrypt failed: decryption error")

/-- **Every pair of keys frames bodies so.** -/
theorem KeyPair.frames (keys : KeyPair) {seed : Nat → Octets}
    (hseed : ∀ i, (seed i).length = hashSize) : keys.Frames seed where
  loaded_iff := ⟨fun _ => Encryptor.exists_ofKey_iff, fun _ => Decryptor.exists_ofKey_iff⟩
  size_eq := ⟨room_pos_iff.1 keys.encryptor.hasRoom, keys.size_eq⟩
  room_of_mem body piece hpiece := by
    rw [← paddingSize_eq]
    exact ⟨ne_nil_of_mem_pieces keys.encryptor.hasRoom hpiece, length_le_of_mem_pieces hpiece⟩
  length_encrypt body := by
    rw [← paddingSize_eq]
    exact keys.encryptor.length_encrypt seed body
  decrypt_encrypt _ hbody := keys.decrypt_encrypt hseed hbody
  encrypt_nil := rfl
  unframed _ h := keys.decryptor.decrypt_of_unframed h
  framed _ hne hframed _ := keys.decryptor.decrypt_eq_ok_iff hne hframed
  spoiled _ hne hframed h := by
    obtain ⟨i, hi, hnone⟩ := h
    exact keys.decryptor.decrypt_of_piece?_eq_none hne hframed hi hnone

/-- A body of seven octets, of which three fit in a block, comes back from its three blocks. -/
theorem frames_sevenOctets :
    (∀ _ : Nat, (List.replicate 64 (1 : UInt8)).length = hashSize) ∧
      (KeyPair.sample.encryptor.encrypt (fun _ => List.replicate 64 1)
        (List.replicate 7 2)).length = 399 ∧
      KeyPair.sample.decryptor.decrypt
        (KeyPair.sample.encryptor.encrypt (fun _ => List.replicate 64 1) (List.replicate 7 2)) =
          .ok (List.replicate 7 2) := by
  have hseed : ∀ _ : Nat, (List.replicate 64 (1 : UInt8)).length = hashSize := fun _ => rfl
  have hframes := KeyPair.sample.frames hseed
  have hsize : KeyPair.sample.encryptor.key.size = 133 := by decide +kernel
  refine ⟨hseed, ?_, hframes.decrypt_encrypt _ (List.cons_ne_nil _ _)⟩
  rw [hframes.length_encrypt, hsize]
  decide

end Telemetry.Rsa
