import RiscvSoc.Aes.Core
import RiscvSoc.Aes.Tables
import RiscvSoc.Lib.Concat
/-!
# The AES datapath computes the layers of FIPS-197

Byte permutations, column maps and the round-key step, each against the
standard's own definition. `State.ofBits` reads a 128-bit vector as the
standard's state, so every lemma says what a transform does to that state.
-/

open Fips197 Gf256

namespace RiscvSoc.Aes

/-! ## Vectors as states -/

theorem ofBits_word (a b c d : Byte) : Word.ofBits (a ++ b ++ c ++ d) = ⟨a, b, c, d⟩ := by
  obtain ⟨h3, h2, h1, h0⟩ := Concat.extract_append4 a b c d
  exact Word.ext h3 h2 h1 h0

theorem ofBits_columns (a b c d : BitVec 32) :
    State.ofBits (a ++ b ++ c ++ d) = ⟨.ofBits a, .ofBits b, .ofBits c, .ofBits d⟩ := by
  obtain ⟨h3, h2, h1, h0⟩ := Concat.extract_append4 a b c d
  exact State.ext (congrArg Word.ofBits h3) (congrArg Word.ofBits h2) (congrArg Word.ofBits h1)
    (congrArg Word.ofBits h0)

/-- The bytes of the state, in the RTL's numbering. -/
theorem ofBits_bytes (s : Block) : State.ofBits s =
    ⟨⟨byteAt s 0, byteAt s 1, byteAt s 2, byteAt s 3⟩, ⟨byteAt s 4, byteAt s 5, byteAt s 6, byteAt s 7⟩,
      ⟨byteAt s 8, byteAt s 9, byteAt s 10, byteAt s 11⟩,
      ⟨byteAt s 12, byteAt s 13, byteAt s 14, byteAt s 15⟩⟩ := by
  simp [State.ofBits, Word.ofBits, byteAt, Concat.extract_extract]

theorem ofBits_toBits (s : State) : State.ofBits s.toBits = s := by
  simp [State.toBits, ofBits_columns, Word.toBits, ofBits_word]

theorem word_toBits_ofBits (x : BitVec 32) : (Word.ofBits x).toBits = x :=
  Concat.append4_extract (w := 8) x

theorem toBits_ofBits (x : Block) : (State.ofBits x).toBits = x := by
  simp only [State.toBits, State.ofBits, word_toBits_ofBits]
  exact Concat.append4_extract (w := 32) x

theorem word_ofBits_xor (x y : BitVec 32) : Word.ofBits (x ^^^ y) = (Word.ofBits x).add (Word.ofBits y) := by
  simp [Word.ofBits, Word.add, BitVec.extractLsb'_xor]

/-- XOR with a vector adds its state as a round key. -/
theorem ofBits_xor (x k : Block) : State.ofBits (x ^^^ k) = addRoundKey (.ofBits k) (.ofBits x) := by
  simp [State.ofBits, addRoundKey, BitVec.extractLsb'_xor, word_ofBits_xor]

/-! ## The layers -/

theorem ofBits_mapBytes (f : Byte → Byte) (s : Block) (i0 i1 i2 i3 i4 i5 i6 i7 i8 i9 i10 i11 i12 i13 i14 i15 : ℕ) :
    State.ofBits (mapBytes f s i0 i1 i2 i3 i4 i5 i6 i7 i8 i9 i10 i11 i12 i13 i14 i15) =
      State.map (Word.map f) ⟨⟨byteAt s i0, byteAt s i1, byteAt s i2, byteAt s i3⟩,
        ⟨byteAt s i4, byteAt s i5, byteAt s i6, byteAt s i7⟩,
        ⟨byteAt s i8, byteAt s i9, byteAt s i10, byteAt s i11⟩,
        ⟨byteAt s i12, byteAt s i13, byteAt s i14, byteAt s i15⟩⟩ := by
  simp [mapBytes, ofBits_columns, ofBits_word, State.map, Word.map]

theorem ofBits_subBytes (s : Block) : State.ofBits (aesSubBytes s) = subBytes (.ofBits s) := by
  rw [aesSubBytes, ofBits_mapBytes, ← ofBits_bytes, show aesSboxFwd = sbox from funext sboxFwd_eq]
  rfl

theorem ofBits_invSubBytes (s : Block) : State.ofBits (aesInvSubBytes s) = invSubBytes (.ofBits s) := by
  rw [aesInvSubBytes, ofBits_mapBytes, ← ofBits_bytes, show aesSboxInv = invSbox from funext sboxInv_eq]
  rfl

theorem ofBits_shiftRows (s : Block) : State.ofBits (aesShiftRows s) = shiftRows (.ofBits s) := by
  rw [aesShiftRows, ofBits_mapBytes, ofBits_bytes]
  rfl

theorem ofBits_invShiftRows (s : Block) : State.ofBits (aesInvShiftRows s) = invShiftRows (.ofBits s) := by
  rw [aesInvShiftRows, ofBits_mapBytes, ofBits_bytes]
  rfl

theorem ofBits_mapColumns {col : Byte → Byte → Byte → Byte → BitVec 32} {f : Word → Word}
    (h : ∀ a b c d, Word.ofBits (col a b c d) = f ⟨a, b, c, d⟩) (s : Block) :
    State.ofBits (mapColumns col s) = State.map f (.ofBits s) := by
  rw [mapColumns, ofBits_columns, ofBits_bytes, h, h, h, h]
  rfl

theorem ofBits_mixColumns (s : Block) : State.ofBits (aesMixColumns s) = mixColumns (.ofBits s) := by
  apply ofBits_mapColumns
  intro a b c d
  rw [aesMixColumn, ofBits_word]
  simp [mulColumn, gmul_eq, one_mul]

theorem ofBits_invMixColumns (s : Block) : State.ofBits (aesInvMixColumns s) = invMixColumns (.ofBits s) := by
  apply ofBits_mapColumns
  intro a b c d
  rw [aesInvMixColumn, ofBits_word]
  simp [mulColumn, gmul_eq]

/-! ## The key schedule -/

theorem ofBits_subWord (x : BitVec 32) : Word.ofBits (subWord x) = Fips197.subWord (.ofBits x) := by
  rw [subWord, ofBits_word]
  simp [Fips197.subWord, Word.map, Word.ofBits, sboxFwd_eq]

theorem ofBits_rotWord (x : BitVec 32) : Word.ofBits (rotWord x) = Fips197.rotWord (.ofBits x) := by
  have hi (k : ℕ) := Concat.extract_append_hi (x.extractLsb' 0 24) (x.extractLsb' 24 8) k 8
  have lo : (x.extractLsb' 0 24 ++ x.extractLsb' 24 8).extractLsb' 0 8 = x.extractLsb' 24 8 :=
    BitVec.extractLsb'_append_eq_right
  refine Word.ext ((hi 16).trans ?_) ((hi 8).trans ?_) ((hi 0).trans ?_) lo <;>
    simp [Concat.extract_extract, Fips197.rotWord, Word.ofBits]

theorem ofBits_rcon {r : BitVec 4} (h1 : 1 ≤ r.toNat) (h10 : r.toNat ≤ 10) :
    Word.ofBits (rconWord r) = rcon r.toNat := by
  revert r
  decide +kernel

/-- One step of the key expansion is one step of the key schedule. -/
theorem ofBits_nextRoundKey {key : State} {r : BitVec 4} {prev : Block} (h1 : 1 ≤ r.toNat)
    (h10 : r.toNat ≤ 10) (hp : State.ofBits prev = roundKey key (r.toNat - 1)) :
    State.ofBits (nextRoundKey r prev) = roundKey key r.toNat := by
  have hr : r.toNat = (r.toNat - 1) + 1 := by omega
  rw [hr, roundKey_succ, ← hp, ← hr]
  simp only [nextRoundKey, ofBits_columns, word_ofBits_xor, ofBits_subWord, ofBits_rotWord, ofBits_rcon h1 h10]
  simp only [State.ofBits, Word.add_assoc]

end RiscvSoc.Aes
