import Mathlib.Data.BitVec
/-!
# Counters of a fixed width

An address that steps up and wraps, and a counter that steps down to 0 and does not.
-/

namespace Counters

variable {w : ℕ}

/-! ## Up -/

theorem add_ofNat_mul_succ (a : BitVec w) (c n : ℕ) :
    a + BitVec.ofNat w (c * n) + BitVec.ofNat w c = a + BitVec.ofNat w (c * (n + 1)) := by
  rw [Nat.mul_add, Nat.mul_one, BitVec.ofNat_add, BitVec.add_assoc]

theorem add_ofNat_succ (a : BitVec w) (n : ℕ) : a + BitVec.ofNat w n + 1#w = a + BitVec.ofNat w (n + 1) := by
  rw [BitVec.ofNat_add, BitVec.add_assoc]

theorem toNat_succ {a : BitVec w} (h : a.toNat + 1 < 2 ^ w) : (a + 1#w).toNat = a.toNat + 1 := by
  rw [BitVec.toNat_add, BitVec.toNat_ofNat, Nat.add_mod_mod, Nat.mod_eq_of_lt h]

/-! ## Down -/

/-- What is left of `len` is 0 once `n` is all of it. -/
theorem eq_zero_iff {left len : BitVec w} {n : ℕ} (h : left.toNat + n = len.toNat) : left = 0#w ↔ n = len.toNat := by
  rw [← BitVec.toNat_inj, BitVec.toNat_ofNat, Nat.zero_mod]
  omega

theorem toNat_eq_zero_iff {b : BitVec w} : b.toNat = 0 ↔ b = 0#w := by
  rw [← BitVec.toNat_inj, BitVec.toNat_ofNat, Nat.zero_mod]

theorem toNat_ne_zero {b : BitVec w} (hb : b ≠ 0#w) : b.toNat ≠ 0 := by
  intro h
  exact hb (toNat_eq_zero_iff.1 h)

theorem toNat_pred {b : BitVec w} (hb : b ≠ 0#w) : (b - 1#w).toNat + 1 = b.toNat := by
  have hpos : 1 ≤ b.toNat := Nat.one_le_iff_ne_zero.2 (toNat_ne_zero hb)
  have h1 : (1#w).toNat = 1 := by
    rw [BitVec.toNat_ofNat]
    apply Nat.mod_eq_of_lt
    have hlt := b.isLt
    omega
  have hle : 1#w ≤ b := by rwa [BitVec.le_def, h1]
  rw [BitVec.toNat_sub_of_le hle, h1]
  omega

/-- One edge of a counter that goes down where `en` is 1, and stops at 0. -/
theorem toNat_down (en : Bool) (b : BitVec w) :
    (if en = true ∧ b ≠ 0#w then b - 1#w else b).toNat = b.toNat - en.toNat := by
  cases en with
  | false => simp
  | true =>
    by_cases hb : b = 0#w
    · simp [hb]
    · have hpred := toNat_pred hb
      simp only [hb, ne_eq, not_false_eq_true, and_self, if_true, Bool.toNat_true]
      omega

theorem eq_pred_iff {a b : BitVec w} (hb : b ≠ 0#w) : a = b - 1#w ↔ a.toNat + 1 = b.toNat := by
  have hpred := toNat_pred hb
  rw [← BitVec.toNat_inj]
  omega

end Counters
