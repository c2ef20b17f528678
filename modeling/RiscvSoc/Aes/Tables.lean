import RiscvSoc.Aes.Pkg
import RiscvSoc.Aes.RoundTrip
/-!
# The tables of `aes_pkg.vh` are the standard's

Checked byte by byte: the entries of the S-box against their indices in the
field, the inverse S-box against the S-box, the constant multipliers against
products in the field.
-/

open Fips197 Gf256

namespace RiscvSoc.Aes

/-- An entry of the S-box, back through the affine map, is the inverse of its index. -/
theorem sboxFwd_inverse {a : Byte} (ha : a ≠ 0) :
    mul a ((aesSboxFwd a).rotateLeft 1 ^^^ (aesSboxFwd a).rotateLeft 3 ^^^ (aesSboxFwd a).rotateLeft 6 ^^^ 0x05#8) =
      1#8 := by
  revert ha
  apply forall_byte (P := fun a => a ≠ 0 →
    mul a ((aesSboxFwd a).rotateLeft 1 ^^^ (aesSboxFwd a).rotateLeft 3 ^^^ (aesSboxFwd a).rotateLeft 6 ^^^ 0x05#8) =
      1#8)
  decide +kernel

theorem sboxFwd_eq (a : Byte) : aesSboxFwd a = sbox a := by
  by_cases ha : a = 0
  · rw [ha, sbox, inv_zero]
    decide +kernel
  · rw [sbox, inv_unique (sboxFwd_inverse ha), inverse_affine]

theorem sboxFwd_inv (a : Byte) : aesSboxFwd (aesSboxInv a) = a := by
  apply forall_byte (P := fun a => aesSboxFwd (aesSboxInv a) = a)
  decide +kernel

theorem sboxInv_eq (a : Byte) : aesSboxInv a = invSbox a := by
  calc
    aesSboxInv a = invSbox (sbox (aesSboxInv a)) := (invSbox_sbox _).symm
    _ = invSbox a := by rw [← sboxFwd_eq, sboxFwd_inv]

/-- The six multipliers of `aes_pkg.vh` are products with their constants. -/
theorem gmul_eq (a : Byte) :
    (aesGmul2 a = mul 0x02 a ∧ aesGmul3 a = mul 0x03 a) ∧ aesGmul9 a = mul 0x09 a ∧
      aesGmul11 a = mul 0x0b a ∧ aesGmul13 a = mul 0x0d a ∧ aesGmul14 a = mul 0x0e a := by
  apply forall_byte (P := fun a => (aesGmul2 a = mul 0x02 a ∧ aesGmul3 a = mul 0x03 a) ∧
    aesGmul9 a = mul 0x09 a ∧ aesGmul11 a = mul 0x0b a ∧ aesGmul13 a = mul 0x0d a ∧ aesGmul14 a = mul 0x0e a)
  decide +kernel

end RiscvSoc.Aes
