import Mathlib.Data.Nat.Bits
import Mathlib.Tactic.Ring
/-!
# Restoring division

One bit of the quotient at each step, from the top: the divisor starts above the dividend,
is taken away from it where it fits, and moves down. With a divisor of zero every bit of the
quotient is set and the dividend stays.
-/

namespace Restoring

/-- A division under way; what is left of the dividend becomes the remainder. -/
structure Div where
  dividend : ℕ
  divisor : ℕ
  quotient : ℕ
  mask : ℕ

namespace Div

def step (s : Div) : Div where
  dividend := if s.divisor ≤ s.dividend then s.dividend - s.divisor else s.dividend
  divisor := s.divisor / 2
  quotient := if s.divisor ≤ s.dividend then s.quotient ||| s.mask else s.quotient
  mask := s.mask / 2

/-- The division of `a` by `b`, `n` bits, from its start. -/
def start (n a b : ℕ) : Div := ⟨a, b * 2 ^ n / 2, 0, 2 ^ n / 2⟩

/-- With `j` steps to go: the quotient so far is that of its upper bits, and its mask and the
divisor are at bit `j - 1`. -/
structure Left (n a b j : ℕ) (s : Div) : Prop where
  total : s.dividend + s.quotient * b = a
  divisor : s.divisor = b * 2 ^ j / 2
  mask : s.mask = 2 ^ j / 2
  upper : 2 ^ j ∣ s.quotient
  fits : 0 < b → s.dividend < b * 2 ^ j
  zero : b = 0 → s.quotient + 2 ^ j = 2 ^ n

variable {n a b : ℕ}

theorem left_start (ha : a < 2 ^ n) : Left n a b n (start n a b) where
  total := by simp [start]
  divisor := rfl
  mask := rfl
  upper := Nat.dvd_zero _
  fits hb := ha.trans_le (Nat.le_mul_of_pos_left _ hb)
  zero _ := Nat.zero_add _

/-- Above bit `j` the quotient takes in its next bit. -/
theorem or_mask {q j : ℕ} (h : 2 ^ (j + 1) ∣ q) : q ||| 2 ^ j = q + 2 ^ j := by
  obtain ⟨m, rfl⟩ := h
  rw [← Nat.two_pow_add_eq_or_of_lt (Nat.pow_lt_pow_right (by omega) (Nat.lt_succ_self j))]

theorem Left.step {j : ℕ} {s : Div} (h : Left n a b (j + 1) s) : Left n a b j s.step := by
  have hd : s.divisor = b * 2 ^ j := by rw [h.divisor, Nat.pow_succ, ← Nat.mul_assoc, Nat.mul_div_cancel _ two_pos]
  have hm : s.mask = 2 ^ j := by rw [h.mask, Nat.pow_succ, Nat.mul_div_cancel _ two_pos]
  have hq : s.quotient ||| s.mask = s.quotient + 2 ^ j := by rw [hm, or_mask h.upper]
  have hup : 2 ^ j ∣ s.quotient := (Nat.pow_dvd_pow 2 (Nat.le_succ j)).trans h.upper
  have hpow : 2 ^ (j + 1) = 2 ^ j + 2 ^ j := by rw [Nat.pow_succ, Nat.mul_two]
  have htot := h.total
  by_cases hle : s.divisor ≤ s.dividend
  · refine ⟨?_, congrArg (· / 2) hd, congrArg (· / 2) hm, ?_, fun hb => ?_, fun hb => ?_⟩ <;> simp only [Div.step, if_pos hle, hq]
    · rw [Nat.add_mul, ← htot, hd, Nat.mul_comm (2 ^ j) b]
      rw [hd] at hle
      omega
    · exact Nat.dvd_add hup (dvd_refl _)
    · have hfit := h.fits hb
      rw [hpow, Nat.mul_add] at hfit
      omega
    · rw [Nat.add_assoc, ← hpow, h.zero hb]
  · refine ⟨?_, congrArg (· / 2) hd, congrArg (· / 2) hm, ?_, fun hb => ?_, fun hb => ?_⟩ <;> simp only [Div.step, if_neg hle]
    · exact htot
    · exact hup
    · omega
    · rw [hd, hb, Nat.zero_mul] at hle
      exact absurd (Nat.zero_le _) hle

theorem left_iterate (ha : a < 2 ^ n) {k : ℕ} (hk : k ≤ n) : Left n a b (n - k) (Div.step^[k] (start n a b)) := by
  induction k with
  | zero => exact left_start ha
  | succ k ih =>
    rw [Function.iterate_succ_apply']
    have h := ih (by omega)
    rw [show n - k = n - (k + 1) + 1 by omega] at h
    exact h.step

/-- After its `n` steps the division has the quotient and the remainder. -/
theorem iterate_pos (ha : a < 2 ^ n) (hb : 0 < b) :
    (Div.step^[n] (start n a b)).quotient = a / b ∧ (Div.step^[n] (start n a b)).dividend = a % b := by
  have h := left_iterate (b := b) ha le_rfl
  rw [Nat.sub_self] at h
  have hfit := h.fits hb
  have htot := h.total
  rw [pow_zero, Nat.mul_one] at hfit
  rw [Nat.add_comm, Nat.mul_comm] at htot
  exact ((Nat.div_mod_unique hb).2 ⟨by omega, hfit⟩).imp Eq.symm Eq.symm

/-- With a divisor of zero the quotient is all ones and the dividend is the remainder. -/
theorem iterate_zero (ha : a < 2 ^ n) :
    (Div.step^[n] (start n a 0)).quotient = 2 ^ n - 1 ∧ (Div.step^[n] (start n a 0)).dividend = a := by
  have h := left_iterate (b := 0) ha le_rfl
  rw [Nat.sub_self] at h
  have hz := h.zero rfl
  have htot := h.total
  rw [Nat.mul_zero] at htot
  exact ⟨by omega, htot⟩

end Div

end Restoring
