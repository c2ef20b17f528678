import RiscvSoc.Aes.Datapath
/-!
# The layers of `aes_core` and their inverses

Each is the standard's on the state that a block holds, so what undoes the standard's undoes
it.
-/

open Fips197

namespace RiscvSoc.Aes

theorem ofBits_injective {x y : Block} (h : State.ofBits x = State.ofBits y) : x = y := by
  rw [← toBits_ofBits x, h, toBits_ofBits]

section Layers

variable (x : Block)

theorem invMixColumns_mixColumns : aesInvMixColumns (aesMixColumns x) = x := by
  apply ofBits_injective
  rw [ofBits_invMixColumns, ofBits_mixColumns, Fips197.invMixColumns_mixColumns]

theorem mixColumns_invMixColumns : aesMixColumns (aesInvMixColumns x) = x := by
  apply ofBits_injective
  rw [ofBits_mixColumns, ofBits_invMixColumns, Fips197.mixColumns_invMixColumns]

theorem invShiftRows_shiftRows : aesInvShiftRows (aesShiftRows x) = x := by
  apply ofBits_injective
  rw [ofBits_invShiftRows, ofBits_shiftRows, Fips197.invShiftRows_shiftRows]

theorem shiftRows_invShiftRows : aesShiftRows (aesInvShiftRows x) = x := by
  apply ofBits_injective
  rw [ofBits_shiftRows, ofBits_invShiftRows, Fips197.shiftRows_invShiftRows]

theorem invSubBytes_subBytes : aesInvSubBytes (aesSubBytes x) = x := by
  apply ofBits_injective
  rw [ofBits_invSubBytes, ofBits_subBytes, Fips197.invSubBytes_subBytes]

theorem subBytes_invSubBytes : aesSubBytes (aesInvSubBytes x) = x := by
  apply ofBits_injective
  rw [ofBits_subBytes, ofBits_invSubBytes, Fips197.subBytes_invSubBytes]

end Layers

/-- The core with `k` as the round key that `rnum` selects and `x` in `data_reg`. -/
def AesCore.atRound (s : AesCore) (k x : Block) : AesCore :=
  { s with dataReg := x, uKeyExpand := { s.uKeyExpand with rk := Function.update s.uKeyExpand.rk s.rnum k } }

/-- A round of decryption undoes the end of one round of encryption and the beginning of the
next. -/
theorem decRoundNext_encRound (s : AesCore) (z k : Block) :
    (s.atRound k (aesShiftRows (aesSubBytes (aesMixColumns z ^^^ k)))).decRoundNext = z := by
  have hkey : (s.atRound k (aesShiftRows (aesSubBytes (aesMixColumns z ^^^ k)))).rkSel = k := by
    simp [AesCore.atRound, AesCore.rkSel]
  have hdata : (s.atRound k (aesShiftRows (aesSubBytes (aesMixColumns z ^^^ k)))).subShiftDec = aesMixColumns z ^^^ k := by
    rw [AesCore.subShiftDec, AesCore.atRound, invShiftRows_shiftRows, invSubBytes_subBytes]
  rw [AesCore.decRoundNext, hkey, hdata, BitVec.xor_assoc, BitVec.xor_self, BitVec.xor_zero, invMixColumns_mixColumns]

/-- The pairs of layers undo each other, and the round of decryption meets that of
encryption. -/
theorem inverse_layers (x k : Block) (s : AesCore) :
    (aesInvMixColumns (aesMixColumns x) = x ∧ aesMixColumns (aesInvMixColumns x) = x) ∧
      (aesInvShiftRows (aesShiftRows x) = x ∧ aesShiftRows (aesInvShiftRows x) = x) ∧
      (aesInvSubBytes (aesSubBytes x) = x ∧ aesSubBytes (aesInvSubBytes x) = x) ∧
      (s.atRound k (aesShiftRows (aesSubBytes (aesMixColumns x ^^^ k)))).decRoundNext = x :=
  ⟨⟨invMixColumns_mixColumns x, mixColumns_invMixColumns x⟩, ⟨invShiftRows_shiftRows x, shiftRows_invShiftRows x⟩,
    ⟨invSubBytes_subBytes x, subBytes_invSubBytes x⟩, decRoundNext_encRound s x k⟩

end RiscvSoc.Aes
