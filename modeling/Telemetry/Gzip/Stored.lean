import Telemetry.Gzip.Body

/-!
# Bodies of stored blocks

The plainest way to compress a body is not to: it is cut into blocks that are stored as they are,
which every reader takes for their octets. So unpacking gives back what was packed, for bodies of
any length: the length in front of a block and its complement fit together, the blocks follow
each other up to the one that says it is the last, and the checksum and the length at the end are
those of what has been unpacked.

* `pack`: a body of stored blocks;
* `inflateBlocks_storedBlock`: one block, with more behind it;
* `inflate_storedBlocks`: all blocks;
* `unpack_pack`: a whole body.
-/

namespace Telemetry.Gzip

/-! ### Packing -/

/-- The longest stored block. -/
def maxStored : Nat := 65535

/-- A stored block. -/
def storedBlock (last : Bool) (octets : Octets) : Octets :=
  (if last then 1 else 0) :: (littleEndian 2 octets.length ++
    (littleEndian 2 (0xFFFF - octets.length) ++ octets))

/-- Stored blocks for all octets. -/
def storedBlocks : (fuel : Nat) → Octets → Octets
  | 0, octets => storedBlock true octets
  | fuel + 1, octets =>
    if octets.length ≤ maxStored then storedBlock true octets
    else storedBlock false (octets.take maxStored) ++ storedBlocks fuel (octets.drop maxStored)

/-- The header of a body that says nothing but its method. -/
def plainHeader : Octets := [0x1f, 0x8b, 8, 0, 0, 0, 0, 0, 0, 0xff]

/-- A compressed body that unpacks to given octets. -/
def pack (octets : Octets) : Octets :=
  plainHeader ++ (storedBlocks (octets.length / maxStored) octets ++
    (littleEndian 4 (checksum octets).toNat ++ littleEndian 4 octets.length))

/-! ### Blocks are read as their octets -/

theorem littleEndian_two (n : Nat) : littleEndian 2 n = [n.toUInt8, (n / 256).toUInt8] := rfl

/-- A number of sixteen bits is read back. -/
theorem ofLittleEndian_two {n : Nat} (hn : n < 65536) :
    ofLittleEndian [n.toUInt8, (n / 256).toUInt8] = n := by
  rw [← littleEndian_two, ofLittleEndian_littleEndian]
  exact Nat.mod_eq_of_lt hn

/-- A stored block, from behind its three bits, is taken for its octets. -/
theorem inflateStored_octets {octets : Octets} (h : octets.length ≤ maxStored) (b : UInt8)
    (more out : Octets) :
    inflateStored out ⟨3, b :: (littleEndian 2 octets.length ++
        (littleEndian 2 (0xFFFF - octets.length) ++ octets)) ++ more⟩ =
      .ok (octets.reverse ++ out, .ofOctets more) := by
  have hmax : maxStored = 65535 := rfl
  have hlength := ofLittleEndian_two (show octets.length < 65536 by omega)
  have hflipped := ofLittleEndian_two (show 0xFFFF - octets.length < 65536 by omega)
  have hsum : octets.length + (0xFFFF - octets.length) = 0xFFFF := by omega
  simp only [inflateStored, Bits.align, littleEndian_two, List.cons_append, List.nil_append,
    Nat.reduceEqDiff, if_false, List.drop_succ_cons, List.drop_zero, hlength, hflipped, hsum,
    ne_eq, not_true, List.take_left, List.drop_left, Nat.lt_irrefl, List.reverseAux_eq]

/-- The three bits in front of a stored block: whether it is the last, and how it is written. -/
theorem take_storedBlock (last : Bool) (rest : Octets) :
    (Bits.ofOctets ((if last then 1 else 0) :: rest)).take 1 =
        .ok (if last then 1 else 0, ⟨1, (if last then 1 else 0) :: rest⟩) ∧
      Bits.take 2 ⟨1, (if last then 1 else 0) :: rest⟩ =
        .ok (0, ⟨3, (if last then 1 else 0) :: rest⟩) := by
  cases last <;> simp [Bits.ofOctets, Bits.take, Bits.next, bind, Except.bind]

/-- **A stored block** is taken for its octets, and what follows it is read on unless it is the
last one. -/
theorem inflateBlocks_storedBlock {octets : Octets} (h : octets.length ≤ maxStored) (last : Bool)
    (more out : Octets) (fuel : Nat) :
    inflateBlocks (fuel + 1) out (.ofOctets (storedBlock last octets ++ more)) =
      if last then .ok (octets.reverse ++ out, .ofOctets more)
      else inflateBlocks fuel (octets.reverse ++ out) (.ofOctets more) := by
  obtain ⟨hlast, hmethod⟩ := take_storedBlock last (littleEndian 2 octets.length ++
    (littleEndian 2 (0xFFFF - octets.length) ++ octets) ++ more)
  have hstored := inflateStored_octets h (if last then 1 else 0) more out
  rw [List.cons_append] at hstored
  rw [storedBlock, List.cons_append, inflateBlocks, hlast]
  simp only [bind, Except.bind, hmethod, if_true, hstored]
  cases last <;> rfl

/-- A body is not longer than its blocks. -/
theorem length_le_storedBlocks (fuel : Nat) (octets : Octets) :
    octets.length ≤ (storedBlocks fuel octets).length := by
  have hblock : ∀ (last : Bool) (bs : Octets), bs.length ≤ (storedBlock last bs).length := by
    intro last bs
    simp only [storedBlock, List.length_cons, List.length_append]
    omega
  induction fuel generalizing octets with
  | zero => exact hblock true octets
  | succ fuel ih =>
    rw [storedBlocks]
    split
    · exact hblock true octets
    · have hhead := hblock false (octets.take maxStored)
      have htail := ih (octets.drop maxStored)
      have hsplit := congrArg List.length (List.take_append_drop maxStored octets)
      rw [List.length_append] at hsplit ⊢
      omega

/-- **Blocks are taken for the octets that were cut into them.** Each block burns one of the
reader's turns, and there is one for each. -/
theorem inflateBlocks_storedBlocks {fuel turns : Nat} (hturns : fuel < turns) {octets : Octets}
    (h : octets.length / maxStored ≤ fuel) (more out : Octets) :
    inflateBlocks turns out (.ofOctets (storedBlocks fuel octets ++ more)) =
      .ok (octets.reverse ++ out, .ofOctets more) := by
  induction fuel generalizing turns octets out with
  | zero =>
    obtain ⟨turns, rfl⟩ : ∃ t, turns = t + 1 := ⟨turns - 1, by omega⟩
    have hshort : octets.length < maxStored := (Nat.div_eq_zero_iff_lt (by decide)).1 (Nat.le_zero.1 h)
    exact inflateBlocks_storedBlock (Nat.le_of_lt hshort) true more out turns
  | succ fuel ih =>
    obtain ⟨turns, rfl⟩ : ∃ t, turns = t + 1 := ⟨turns - 1, by omega⟩
    rw [storedBlocks]
    split
    · rename_i hshort
      exact inflateBlocks_storedBlock hshort true more out turns
    · rename_i hlong
      have hrest : (octets.drop maxStored).length / maxStored ≤ fuel := by
        have hquotient := Nat.div_eq_sub_div (by decide) (Nat.le_of_not_le hlong)
        rw [List.length_drop]
        omega
      have hhead : (octets.take maxStored).length ≤ maxStored := List.length_take_le ..
      rw [List.append_assoc, inflateBlocks_storedBlock hhead false _ out, if_neg (by decide),
        ih (by omega) hrest, ← List.append_assoc, ← List.reverse_append, List.take_append_drop]

/-- **Stored blocks unpack** to the octets in them, and leave what follows them. -/
theorem inflate_storedBlocks (octets more : Octets) :
    inflate (storedBlocks (octets.length / maxStored) octets ++ more) = .ok (octets, more) := by
  have hlength := length_le_storedBlocks (octets.length / maxStored) octets
  have hquotient := Nat.div_le_self octets.length maxStored
  have hturns : octets.length / maxStored <
      (Bits.ofOctets (storedBlocks (octets.length / maxStored) octets ++ more)).size + 1 := by
    rw [Bits.size, Bits.ofOctets, List.length_append]
    omega
  rw [inflate]
  simp only [bind, Except.bind, inflateBlocks_storedBlocks hturns (Nat.le_refl _) more [],
    List.append_nil, List.reverse_reverse, Bits.align_ofOctets]

/-! ### The body around the blocks -/

theorem takeOctets_append (head rest : Octets) :
    takeOctets head.length (head ++ rest) = .ok (head, rest) := by
  rw [takeOctets, List.take_left, List.drop_left]
  exact if_neg (Nat.lt_irrefl _)

/-- The header that says nothing is skipped. -/
theorem skipHeader_plainHeader (body : Octets) : skipHeader (plainHeader ++ body) = .ok body := by
  have hfixed : takeOctets 10 (plainHeader ++ body) = .ok (plainHeader, body) :=
    takeOctets_append plainHeader body
  rw [skipHeader, hfixed]
  rfl

/-- A number of 32 bits is read back from the four octets of a trailer. -/
theorem ofLittleEndian_four (n : Nat) : ofLittleEndian (littleEndian 4 n) = n % Nat.pow 2 32 :=
  ofLittleEndian_littleEndian 4 n

/-- **A compressed body unpacks** to what it was made of. -/
theorem unpack_pack (octets : Octets) : unpack (pack octets) = .ok octets := by
  have hsum : (checksum octets).toNat % Nat.pow 2 32 = (checksum octets).toNat :=
    Nat.mod_eq_of_lt (checksum octets).toNat_lt
  have hsumLength : (littleEndian 4 (checksum octets).toNat).length = 4 := length_littleEndian ..
  have htrailer := takeOctets_append
    (littleEndian 4 (checksum octets).toNat ++ littleEndian 4 octets.length) []
  rw [List.append_nil, List.length_append, hsumLength, length_littleEndian] at htrailer
  have hhead : (littleEndian 4 (checksum octets).toNat ++ littleEndian 4 octets.length).take 4 =
      littleEndian 4 (checksum octets).toNat := List.take_left' hsumLength
  have htail : (littleEndian 4 (checksum octets).toNat ++ littleEndian 4 octets.length).drop 4 =
      littleEndian 4 octets.length := List.drop_left' hsumLength
  rw [unpack, pack, skipHeader_plainHeader]
  simp only [bind, Except.bind, inflate_storedBlocks, htrailer, hhead, htail, ofLittleEndian_four,
    hsum]
  exact if_neg (by simp)

/-- A packed body is not empty: it has its header. -/
theorem pack_ne_nil (octets : Octets) : pack octets ≠ [] := List.cons_ne_nil _ _

end Telemetry.Gzip
