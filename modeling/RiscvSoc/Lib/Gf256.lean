import Mathlib.Data.BitVec
/-!
# Arithmetic of GF(2^8)

Bytes are polynomials over GF(2), bit `k` the coefficient of `x^k`, taken
modulo `m(x) = x^8 + x^4 + x^3 + x + 1` (`0x11b`). `mul` multiplies the
polynomials and reduces the product, `inv` is the multiplicative inverse (and
maps 0 to 0).
-/

namespace Gf256

/-- The product of two polynomials over GF(2), from the low `n` bits of `b`. -/
def clmul (a b : ℕ) : ℕ → ℕ
  | 0 => 0
  | k + 1 => bif b.testBit k then (a <<< k) ^^^ clmul a b k else clmul a b k

/-- Long division by `0x11b`: clears the bits `8 + k` for `k < n`, highest first. -/
def polyMod (p : ℕ) : ℕ → ℕ
  | 0 => p
  | k + 1 => polyMod (bif p.testBit (8 + k) then p ^^^ (0x11b <<< k) else p) k

/-- The product in the field: degree at most 14, so seven reduction steps. -/
def mul (a b : BitVec 8) : BitVec 8 :=
  BitVec.ofNat 8 (polyMod (clmul a.toNat b.toNat 8) 7)

/-- The inverse, as `a^254 = a^2 · a^4 · ... · a^128`. -/
def inv (a : BitVec 8) : BitVec 8 :=
  let a2 := mul a a
  let a4 := mul a2 a2
  let a8 := mul a4 a4
  let a16 := mul a8 a8
  let a32 := mul a16 a16
  let a64 := mul a32 a32
  let a128 := mul a64 a64
  mul a2 (mul a4 (mul a8 (mul a16 (mul a32 (mul a64 a128)))))

/-- A property of bytes, checked on the 256 numbers below 256. -/
theorem forall_byte {P : BitVec 8 → Prop} (h : ∀ n < 256, P (BitVec.ofNat 8 n)) (a : BitVec 8) : P a := by
  simpa using h a.toNat a.isLt

/-! ## Multiplication is linear -/

theorem xor_cancel (c x y : ℕ) : (c ^^^ x) ^^^ (c ^^^ y) = x ^^^ y := by
  calc
    (c ^^^ x) ^^^ (c ^^^ y) = (c ^^^ c) ^^^ (x ^^^ y) := by ac_rfl
    _ = x ^^^ y := by rw [Nat.xor_self, Nat.zero_xor]

theorem clmul_xor (a b c k : ℕ) : clmul a (b ^^^ c) k = clmul a b k ^^^ clmul a c k := by
  induction k with
  | zero => exact (Nat.xor_self 0).symm
  | succ k ih =>
    simp only [clmul, Nat.testBit_xor, ih]
    cases b.testBit k <;> cases c.testBit k
    · rfl
    · show a <<< k ^^^ (clmul a b k ^^^ clmul a c k) = clmul a b k ^^^ (a <<< k ^^^ clmul a c k)
      ac_rfl
    · exact (Nat.xor_assoc _ _ _).symm
    · exact (xor_cancel _ _ _).symm

theorem polyMod_xor (p q k : ℕ) : polyMod (p ^^^ q) k = polyMod p k ^^^ polyMod q k := by
  induction k generalizing p q with
  | zero => rfl
  | succ k ih =>
    simp only [polyMod, Nat.testBit_xor, ← ih]
    cases p.testBit (8 + k) <;> cases q.testBit (8 + k)
    · rfl
    · exact congrArg (polyMod · k) (Nat.xor_assoc _ _ _)
    · exact congrArg (polyMod · k) (show (p ^^^ q) ^^^ _ = (p ^^^ _) ^^^ q by ac_rfl)
    · have h (c : ℕ) : p ^^^ q = (p ^^^ c) ^^^ (q ^^^ c) := by
        rw [Nat.xor_comm p c, Nat.xor_comm q c, xor_cancel]
      exact congrArg (polyMod · k) (h _)

theorem xor_clmul (a b c k : ℕ) : clmul (a ^^^ b) c k = clmul a c k ^^^ clmul b c k := by
  induction k with
  | zero => exact (Nat.xor_self 0).symm
  | succ k ih =>
    simp only [clmul, ih]
    cases c.testBit k
    · rfl
    · show (a ^^^ b) <<< k ^^^ (clmul a c k ^^^ clmul b c k) = (a <<< k ^^^ clmul a c k) ^^^ (b <<< k ^^^ clmul b c k)
      rw [Nat.shiftLeft_xor_distrib]
      ac_rfl

theorem mul_xor (a b c : BitVec 8) : mul a (b ^^^ c) = mul a b ^^^ mul a c := by
  rw [mul, BitVec.toNat_xor, clmul_xor, polyMod_xor]
  exact BitVec.ofNat_xor

theorem xor_mul (a b c : BitVec 8) : mul (a ^^^ b) c = mul a c ^^^ mul b c := by
  rw [mul, BitVec.toNat_xor, xor_clmul, polyMod_xor]
  exact BitVec.ofNat_xor

/-! ## The field -/

theorem sum_of_powers (a : BitVec 8) :
    (List.range 8).foldl (fun s i => if a.getLsbD i then s ^^^ 1#8 <<< i else s) 0 = a := by
  apply forall_byte (P := fun a => (List.range 8).foldl (fun s i => if a.getLsbD i then s ^^^ 1#8 <<< i else s) 0 = a)
  decide +kernel

/-- Bytes are sums of powers of `x`: what is linear is checked on those. -/
theorem byte_induction {P : BitVec 8 → Prop} (pow : ∀ i < 8, P (1#8 <<< i)) (add : ∀ a b, P a → P b → P (a ^^^ b))
    (a : BitVec 8) : P a := by
  have zero : P 0 := by simpa using add _ _ (pow 0 (by decide)) (pow 0 (by decide))
  rw [← sum_of_powers a]
  refine List.foldlRecOn _ _ zero fun s hs i hi => ?_
  split
  · exact add _ _ hs (pow i (List.mem_range.1 hi))
  · exact hs

theorem mul_comm (a b : BitVec 8) : mul a b = mul b a := by
  induction a using byte_induction with
  | add a a' ha ha' => rw [xor_mul, mul_xor, ha, ha']
  | pow i hi =>
    induction b using byte_induction with
    | add b b' hb hb' => rw [xor_mul, mul_xor, hb, hb']
    | pow j hj =>
      revert i j
      decide +kernel

theorem mul_assoc (a b c : BitVec 8) : mul (mul a b) c = mul a (mul b c) := by
  induction a using byte_induction with
  | add a a' ha ha' => rw [xor_mul, xor_mul, xor_mul, ha, ha']
  | pow i hi =>
    induction b using byte_induction with
    | add b b' hb hb' => rw [mul_xor, xor_mul, xor_mul, mul_xor, hb, hb']
    | pow j hj =>
      induction c using byte_induction with
      | add c c' hc hc' => rw [mul_xor, mul_xor, mul_xor, hc, hc']
      | pow k hk =>
        revert i j k
        decide +kernel

theorem one_mul (a : BitVec 8) : mul 1#8 a = a := by
  induction a using byte_induction with
  | add a b ha hb => rw [mul_xor, ha, hb]
  | pow i hi =>
    revert i
    decide +kernel

theorem mul_one (a : BitVec 8) : mul a 1#8 = a := by
  rw [mul_comm, one_mul]

theorem mul_zero (a : BitVec 8) : mul a 0#8 = 0#8 := by
  simpa using mul_xor a 0#8 0#8

theorem zero_mul (a : BitVec 8) : mul 0#8 a = 0#8 := by
  rw [mul_comm, mul_zero]

/-- `inv` is the inverse of every nonzero byte. -/
theorem mul_inv_self {a : BitVec 8} (ha : a ≠ 0) : mul a (inv a) = 1#8 := by
  revert ha
  apply forall_byte (P := fun a => a ≠ 0 → mul a (inv a) = 1#8)
  decide +kernel

theorem inv_zero : inv 0 = 0 := by decide +kernel

theorem inv_unique {a b : BitVec 8} (h : mul a b = 1#8) : inv a = b := by
  have ha : a ≠ 0 := by
    rintro rfl
    exact absurd ((zero_mul b).symm.trans h) (by decide)
  calc
    inv a = mul (inv a) (mul a b) := by rw [h, mul_one]
    _ = b := by rw [← mul_assoc, mul_comm (inv a), mul_inv_self ha, one_mul]

theorem inv_inv (a : BitVec 8) : inv (inv a) = a := by
  by_cases ha : a = 0
  · rw [ha, inv_zero, inv_zero]
  exact inv_unique (by rw [mul_comm, mul_inv_self ha])

end Gf256
