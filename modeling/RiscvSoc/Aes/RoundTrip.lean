import RiscvSoc.Aes.Fips197
/-!
# Decryption undoes encryption

Layer by layer, then round by round: `invCipher` meets the rounds of `cipher`
in reverse order with the same round keys.
-/

namespace Fips197

open Gf256

theorem affine_inverse (b : BitVec 8) :
    (affine b).rotateLeft 1 ^^^ (affine b).rotateLeft 3 ^^^ (affine b).rotateLeft 6 ^^^ 0x05#8 = b := by
  apply forall_byte (P := fun b =>
    (affine b).rotateLeft 1 ^^^ (affine b).rotateLeft 3 ^^^ (affine b).rotateLeft 6 ^^^ 0x05#8 = b)
  decide +kernel

theorem inverse_affine (b : BitVec 8) :
    affine (b.rotateLeft 1 ^^^ b.rotateLeft 3 ^^^ b.rotateLeft 6 ^^^ 0x05#8) = b := by
  apply forall_byte (P := fun b => affine (b.rotateLeft 1 ^^^ b.rotateLeft 3 ^^^ b.rotateLeft 6 ^^^ 0x05#8) = b)
  decide +kernel

theorem invSbox_sbox (a : BitVec 8) : invSbox (sbox a) = a := by
  rw [invSbox, sbox, affine_inverse, inv_inv]

theorem sbox_invSbox (a : BitVec 8) : sbox (invSbox a) = a := by
  rw [sbox, invSbox, inv_inv, inverse_affine]

theorem Word.map_map {f g : BitVec 8 → BitVec 8} (h : ∀ a, f (g a) = a) (w : Word) : (w.map g).map f = w := by
  simp [Word.map, h]

theorem State.map_map {f g : Word → Word} (h : ∀ w, f (g w) = w) (s : State) : (s.map g).map f = s := by
  simp [State.map, h]

theorem invSubBytes_subBytes (s : State) : invSubBytes (subBytes s) = s :=
  State.map_map (Word.map_map invSbox_sbox) s

theorem subBytes_invSubBytes (s : State) : subBytes (invSubBytes s) = s :=
  State.map_map (Word.map_map sbox_invSbox) s

theorem invShiftRows_shiftRows (s : State) : invShiftRows (shiftRows s) = s := rfl

theorem shiftRows_invShiftRows (s : State) : shiftRows (invShiftRows s) = s := rfl

/-- The inverse matrix times the matrix is the identity: the four entries of its first row. -/
theorem inv_matrix (v : BitVec 8) :
    (mul 14#8 (mul 2#8 v) ^^^ mul 11#8 v ^^^ mul 13#8 v ^^^ mul 9#8 (mul 3#8 v) = v ∧
      mul 14#8 (mul 3#8 v) ^^^ mul 11#8 (mul 2#8 v) ^^^ mul 13#8 v ^^^ mul 9#8 v = 0) ∧
    mul 14#8 v ^^^ mul 11#8 (mul 3#8 v) ^^^ mul 13#8 (mul 2#8 v) ^^^ mul 9#8 v = 0 ∧
      mul 14#8 v ^^^ mul 11#8 v ^^^ mul 13#8 (mul 3#8 v) ^^^ mul 9#8 (mul 2#8 v) = 0 := by
  -- each entry is a product of constants, times `v`
  have one {c : BitVec 8} (hc : c = 1#8) : mul c v = v := by rw [hc, one_mul]
  have zero {c : BitVec 8} (hc : c = 0#8) : mul c v = 0 := by rw [hc, zero_mul]; rfl
  simp only [← mul_assoc, ← xor_mul]
  exact ⟨⟨one (by decide +kernel), zero (by decide +kernel)⟩, zero (by decide +kernel), zero (by decide +kernel)⟩

/-- Byte 0 of the product of the two matrices with a column. -/
theorem inv_row (a b c d : BitVec 8) :
    mul 14#8 (mul 2#8 a ^^^ mul 3#8 b ^^^ c ^^^ d) ^^^ mul 11#8 (a ^^^ mul 2#8 b ^^^ mul 3#8 c ^^^ d) ^^^
      mul 13#8 (a ^^^ b ^^^ mul 2#8 c ^^^ mul 3#8 d) ^^^ mul 9#8 (mul 3#8 a ^^^ b ^^^ c ^^^ mul 2#8 d) = a := by
  have ha := (inv_matrix a).1.1
  have hb := (inv_matrix b).1.2
  have hc := (inv_matrix c).2.1
  have hd := (inv_matrix d).2.2
  simp only [mul_xor]
  calc
    _ = (mul 14#8 (mul 2#8 a) ^^^ mul 11#8 a ^^^ mul 13#8 a ^^^ mul 9#8 (mul 3#8 a)) ^^^
        (mul 14#8 (mul 3#8 b) ^^^ mul 11#8 (mul 2#8 b) ^^^ mul 13#8 b ^^^ mul 9#8 b) ^^^
        (mul 14#8 c ^^^ mul 11#8 (mul 3#8 c) ^^^ mul 13#8 (mul 2#8 c) ^^^ mul 9#8 c) ^^^
        (mul 14#8 d ^^^ mul 11#8 d ^^^ mul 13#8 (mul 3#8 d) ^^^ mul 9#8 (mul 2#8 d)) := by ac_rfl
    _ = a := by rw [ha, hb, hc, hd]; simp

theorem mulColumn_inv (w : Word) : mulColumn ⟨0x0e, 0x0b, 0x0d, 0x09⟩ (mulColumn ⟨0x02, 0x03, 0x01, 0x01⟩ w) = w := by
  obtain ⟨a, b, c, d⟩ := w
  refine Word.ext ?_ ?_ ?_ ?_ <;> simp only [mulColumn, BitVec.ofNat_eq_ofNat, one_mul]
  · exact inv_row a b c d
  · refine Eq.trans ?_ (inv_row b c d a); ac_rfl
  · refine Eq.trans ?_ (inv_row c d a b); ac_rfl
  · refine Eq.trans ?_ (inv_row d a b c); ac_rfl

/-- Circulant matrices commute. -/
theorem mulColumn_comm (m n v : Word) : mulColumn m (mulColumn n v) = mulColumn n (mulColumn m v) := by
  have hmul (x a b : BitVec 8) : mul x (mul a b) = mul (mul a x) b := by
    rw [← mul_assoc, Gf256.mul_comm x]
  simp only [mulColumn, mul_xor, hmul n.b0, hmul n.b1, hmul n.b2, hmul n.b3, ← mul_assoc, Word.mk.injEq]
  refine ⟨?_, ?_, ?_, ?_⟩ <;> ac_rfl

theorem invMixColumns_mixColumns (s : State) : invMixColumns (mixColumns s) = s := State.map_map mulColumn_inv s

theorem mixColumns_invMixColumns (s : State) : mixColumns (invMixColumns s) = s :=
  State.map_map (fun w => by rw [mulColumn_comm, mulColumn_inv]) s

theorem Word.add_add_cancel (v w : Word) : (v.add w).add w = v := by
  rw [Word.add_assoc]
  simp [Word.add]

theorem addRoundKey_addRoundKey (k s : State) : addRoundKey k (addRoundKey k s) = s := by
  simp only [addRoundKey, Word.add_add_cancel]

/-- After `n` rounds decryption is where encryption was before its last `n` rounds, up to the byte layers. -/
theorem invRounds_rounds (k : ℕ → State) (s : State) {n : ℕ} (hn : n ≤ 9) :
    invRounds k (shiftRows (subBytes (rounds k s 9))) n = shiftRows (subBytes (rounds k s (9 - n))) := by
  induction n with
  | zero => rfl
  | succ n ih =>
    obtain ⟨m, hm⟩ : ∃ m, 9 - n = m + 1 := ⟨8 - n, by omega⟩
    rw [invRounds, ih (by omega), invShiftRows_shiftRows, invSubBytes_subBytes, hm, rounds,
      addRoundKey_addRoundKey, invMixColumns_mixColumns, show 9 - (n + 1) = m by omega]

theorem invCipher_cipher (k : ℕ → State) (s : State) : invCipher k (cipher k s) = s := by
  rw [invCipher, cipher, addRoundKey_addRoundKey, invRounds_rounds k _ le_rfl, invShiftRows_shiftRows,
    invSubBytes_subBytes]
  exact addRoundKey_addRoundKey _ _

end Fips197
