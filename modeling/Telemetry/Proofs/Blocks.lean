import Mathlib
import Telemetry.Proofs.KeyPairs

/-!
# Encrypted bodies are decrypted

A body is cut into pieces of the length for which a block has room, and what they are encrypted
to is cut into blocks of the width of the modulus. The two lengths differ, but each cut finds the
seams of its own side: pieces put together are the body, and blocks of one width put together are
cut into those blocks again. So a body of any length but none comes back, block by block.

* `flatten_pieces`, `pieces_flatten`: cutting and putting together;
* `KeyPair.decrypt_encrypt`: a body comes back from its blocks.
-/

namespace Telemetry.Rsa

/-! ### Pieces -/

/-- Pieces are cut the same way with any fuel that suffices. -/
theorem pieces_go_eq {length : Nat} (hlength : 0 < length) {fuel : Nat} {text : Octets}
    (h : text.length ≤ fuel) : pieces.go length fuel text = pieces length text := by
  have hmore : ∀ {more less : Nat} {bs : Octets}, bs.length ≤ more → bs.length ≤ less →
      pieces.go length more bs = pieces.go length less bs := by
    intro more less bs hmore hless
    induction more generalizing less bs with
    | zero =>
      obtain rfl : bs = [] := List.length_eq_zero_iff.1 (Nat.le_zero.1 hmore)
      cases less <;> rfl
    | succ more ih =>
      cases less with
      | zero =>
        obtain rfl : bs = [] := List.length_eq_zero_iff.1 (Nat.le_zero.1 hless)
        rfl
      | succ less =>
        rw [pieces.go, pieces.go]
        split
        · rfl
        · rename_i hne
          have hpos : 0 < bs.length := List.length_pos_iff.2 (by simpa using hne)
          have hdrop : (bs.drop length).length < bs.length := by
            rw [List.length_drop]
            omega
          have hmore' : (bs.drop length).length ≤ more := by omega
          have hless' : (bs.drop length).length ≤ less := by omega
          rw [ih hmore' hless']
  exact hmore h (Nat.le_refl _)

/-- The first piece of a text, and the pieces of the rest. -/
theorem pieces_of_ne_nil {length : Nat} (hlength : 0 < length) {text : Octets} (h : text ≠ []) :
    pieces length text = text.take length :: pieces length (text.drop length) := by
  obtain ⟨n, hn⟩ : ∃ n, text.length = n + 1 :=
    ⟨text.length - 1, by have := List.length_pos_iff.2 h; omega⟩
  have hrest : (text.drop length).length ≤ n := by
    rw [List.length_drop]
    omega
  rw [pieces, hn, pieces.go, if_neg (by simpa using h), pieces_go_eq hlength hrest]

theorem pieces_nil (length : Nat) : pieces length [] = [] := rfl

/-- **Pieces put together are the text.** -/
theorem flatten_pieces {length : Nat} (hlength : 0 < length) (text : Octets) :
    (pieces length text).flatten = text := by
  induction hn : text.length using Nat.strong_induction_on generalizing text with
  | _ n ih =>
    by_cases h : text = []
    · rw [h, pieces_nil, List.flatten_nil]
    · have hpos := List.length_pos_iff.2 h
      rw [pieces_of_ne_nil hlength h, List.flatten_cons,
        ih (text.drop length).length (by rw [List.length_drop]; omega) _ rfl,
        List.take_append_drop]

/-- No piece is longer than it may be. -/
theorem length_le_of_mem_pieces {length : Nat} {text piece : Octets}
    (h : piece ∈ pieces length text) : piece.length ≤ length := by
  have hgo : ∀ {fuel : Nat} {bs : Octets}, piece ∈ pieces.go length fuel bs →
      piece.length ≤ length := by
    intro fuel bs hmem
    induction fuel generalizing bs with
    | zero => cases hmem
    | succ fuel ih =>
      rw [pieces.go] at hmem
      split at hmem
      · cases hmem
      · rcases List.mem_cons.1 hmem with rfl | hmem
        · exact List.length_take_le ..
        · exact ih hmem
  exact hgo h

/-- **Blocks of one width are cut apart again.** -/
theorem pieces_flatten {length : Nat} (hlength : 0 < length) {blocks : List Octets}
    (h : ∀ b ∈ blocks, b.length = length) : pieces length blocks.flatten = blocks := by
  induction blocks with
  | nil => rfl
  | cons b blocks ih =>
    have hb := h b List.mem_cons_self
    have hne : b ++ blocks.flatten ≠ [] := by
      rw [← List.length_pos_iff, List.length_append]
      omega
    rw [List.flatten_cons, pieces_of_ne_nil hlength hne, List.take_left' hb, List.drop_left' hb,
      ih fun c hc => h c (List.mem_cons_of_mem b hc)]

/-- Blocks of one width are as long as their number times the width. -/
theorem length_flatten_blocks {length : Nat} {blocks : List Octets}
    (h : ∀ b ∈ blocks, b.length = length) : blocks.flatten.length = blocks.length * length := by
  rw [List.length_flatten, List.map_congr_left h, List.map_const', List.sum_replicate,
    smul_eq_mul]

/-! ### Blocks -/

/-- What each step gives back is given back of all, whatever the step depends on beside it. -/
theorem mapM_mapIdx {ε α β : Type} {f : Nat → α → β} {g : β → Except ε α} {xs : List α}
    (h : ∀ i, ∀ x ∈ xs, g (f i x) = .ok x) : (xs.mapIdx f).mapM g = .ok xs := by
  induction xs generalizing f with
  | nil => rfl
  | cons x xs ih =>
    rw [List.mapIdx_cons, List.mapM_cons, h 0 x List.mem_cons_self,
      ih fun i y hy => h (i + 1) y (List.mem_cons_of_mem x hy)]
    rfl

/-- The blocks of a body. -/
def Encryptor.blocks (e : Encryptor) (seed : Nat → Octets) (body : Octets) : List Octets :=
  (pieces (room e.key) body).mapIdx fun i piece => e.block (seed i) piece

theorem Encryptor.encrypt_eq_flatten (e : Encryptor) (seed : Nat → Octets) (body : Octets) :
    e.encrypt seed body = (e.blocks seed body).flatten := rfl

theorem Encryptor.length_of_mem_blocks {e : Encryptor} {seed : Nat → Octets} {body b : Octets}
    (h : b ∈ e.blocks seed body) : b.length = e.key.size := by
  obtain ⟨i, hi, rfl⟩ := List.mem_mapIdx.1 h
  exact e.length_block ..

/-- **A body comes back from its blocks**, whatever the seeds, unless it is empty. -/
theorem KeyPair.decrypt_encrypt (keys : KeyPair) {seed : Nat → Octets}
    (hseed : ∀ i, (seed i).length = hashSize) {body : Octets} (hbody : body ≠ []) :
    keys.decryptor.decrypt (keys.encryptor.encrypt seed body) = .ok body := by
  have hroom := keys.encryptor.hasRoom
  have hwidth : 0 < keys.encryptor.key.size := by
    rw [room] at hroom
    omega
  have hblocks : ∀ b ∈ keys.encryptor.blocks seed body, b.length = keys.encryptor.key.size :=
    fun b hb => Encryptor.length_of_mem_blocks hb
  have hlength := length_flatten_blocks hblocks
  -- there is a first piece, so there is a first block
  have hsome : 0 < (keys.encryptor.blocks seed body).length := by
    rw [Encryptor.blocks, List.length_mapIdx, pieces_of_ne_nil hroom hbody]
    exact Nat.succ_pos _
  have hframed : ¬((keys.encryptor.blocks seed body).flatten.isEmpty = true ∨
      (keys.encryptor.blocks seed body).flatten.length % keys.encryptor.key.size ≠ 0) := by
    rw [hlength, Nat.mul_mod_left, List.isEmpty_iff_length_eq_zero, hlength]
    have := Nat.mul_pos hsome hwidth
    omega
  have hpieces : (keys.encryptor.blocks seed body).mapM keys.decryptor.piece =
      .ok (pieces (room keys.encryptor.key) body) :=
    mapM_mapIdx fun i piece hpiece => keys.piece_block (hseed i) (length_le_of_mem_pieces hpiece)
  rw [Encryptor.encrypt_eq_flatten, Decryptor.decrypt, keys.size_eq, if_neg hframed,
    pieces_flatten hwidth hblocks, hpieces]
  exact congrArg Except.ok (flatten_pieces hroom body)

end Telemetry.Rsa
