import Mathlib.Data.BitVec
/-!
# Slices of concatenations

A word made of four equal parts, most significant first, and its parts. A register that
drops its upper bits and takes one in below.
-/

namespace Concat

variable {w : ℕ}

/-- A slice of a slice. -/
theorem extract_extract (x : BitVec w) (i j : ℕ) {m n : ℕ} (h : i + m ≤ n) :
    (x.extractLsb' j n).extractLsb' i m = x.extractLsb' (j + i) m := by
  ext k hk
  simp only [BitVec.getElem_extractLsb', BitVec.getLsbD_extractLsb']
  simp [show i + k < n by omega, Nat.add_assoc]

/-- A slice of the lower bits. -/
theorem extract_low (x : BitVec w) {n u l : ℕ} (h : u ≤ n) (h' : l ≤ n) :
    (x.extractLsb n 0).extractLsb u l = x.extractLsb u l := by
  ext k hk
  simp [show l + k ≤ n by omega]

theorem signExtend_append {v n : ℕ} (x : BitVec v) (y : BitVec w) (h0 : 0 < v) :
    (x ++ y).signExtend (n + w) = x.signExtend n ++ y := by
  ext k hk
  simp only [BitVec.getElem_signExtend, BitVec.getElem_append, BitVec.msb_append]
  by_cases hk' : k < w
  · simp [hk', show k < v + w by omega]
  · simp only [hk', dite_false, show (k < v + w) = (k - w < v) by simp; omega, h0.ne', if_false]

theorem signExtend_append_of {v n : ℕ} {x : BitVec v} {z : BitVec n} (h0 : 0 < v) (h : x.signExtend n = z) (y : BitVec w) :
    (x ++ y).signExtend (n + w) = z ++ y := by
  rw [signExtend_append x y h0, h]

theorem signExtend_signExtend {v n : ℕ} (x : BitVec w) (hv : w ≤ v) (hn : v ≤ n) :
    (x.signExtend v).signExtend n = x.signExtend n := by
  apply BitVec.eq_of_toInt_eq
  rw [BitVec.toInt_signExtend_of_le hn, BitVec.toInt_signExtend_of_le hv, BitVec.toInt_signExtend_of_le (hv.trans hn)]

/-- Zeros on top say that the rest is not signed. -/
theorem signExtend_zero_append {n N : ℕ} (x : BitVec w) (h0 : 0 < n) : (0#n ++ x).signExtend N = x.setWidth N := by
  ext k hk
  have hout : w ≤ k → x.getLsbD k = false := BitVec.getLsbD_of_ge x k
  simp only [BitVec.getElem_signExtend, BitVec.getElem_append, BitVec.msb_append, BitVec.getElem_setWidth]
  by_cases hk' : k < w
  · simp [hk', show k < n + w by omega]
  · simp [hk', h0.ne', hout (by omega)]

/-- The same with more below. -/
theorem signExtend_setWidth_append {v v' N : ℕ} {x : BitVec v} {x' : BitVec v'} (h0 : 0 < v)
    (h : ∀ N, x.signExtend N = x'.setWidth N) (y : BitVec w) : (x ++ y).signExtend N = (x' ++ y).setWidth N := by
  ext k hk
  simp only [BitVec.getElem_signExtend, BitVec.getElem_append, BitVec.msb_append, BitVec.getElem_setWidth, BitVec.getLsbD_append]
  by_cases hk' : k < w
  · simp [hk', show k < v + w by omega]
  · have hbit := congrArg (·.getLsbD (k - w)) (h (k - w + 1))
    simp only [BitVec.getLsbD_signExtend, BitVec.getLsbD_setWidth, Nat.lt_succ_self, decide_true, Bool.true_and] at hbit
    simp only [hk', h0.ne', ← hbit, dite_false, if_false]
    by_cases hv : k - w < v
    · simp [hv, show k < v + w by omega]
    · simp [hv, show ¬ k < v + w by omega]

theorem append_eq_iff {v : ℕ} {x : BitVec v} {y : BitVec w} {z : BitVec (v + w)} :
    x ++ y = z ↔ x = z.extractLsb' w v ∧ y = z.extractLsb' 0 w := by
  constructor
  · rintro rfl
    exact ⟨BitVec.extractLsb'_append_eq_left.symm, BitVec.extractLsb'_append_eq_right.symm⟩
  · rintro ⟨rfl, rfl⟩
    rw [BitVec.extractLsb'_append_extractLsb'_eq_extractLsb' (Nat.zero_add w).symm]
    exact BitVec.extractLsb'_eq_self

/-- Two slices side by side. -/
theorem extract_add_eq_iff (x : BitVec w) (i m n : ℕ) {v : BitVec (m + n)} :
    x.extractLsb' i (m + n) = v ↔ x.extractLsb' (i + n) m = v.extractLsb' n m ∧ x.extractLsb' i n = v.extractLsb' 0 n := by
  rw [← BitVec.extractLsb'_append_extractLsb'_eq_extractLsb' rfl, append_eq_iff]

/-- A slice of the upper part. -/
theorem extract_append_hi {v : ℕ} (x : BitVec v) (y : BitVec w) (k n : ℕ) :
    (x ++ y).extractLsb' (w + k) n = x.extractLsb' k n := by
  rw [BitVec.extractLsb'_append_eq_of_le (by omega), Nat.add_sub_cancel_left]

theorem extract_append4 (a b c d : BitVec w) :
    (a ++ b ++ c ++ d).extractLsb' (w + w + w) w = a ∧ (a ++ b ++ c ++ d).extractLsb' (w + w) w = b ∧
      (a ++ b ++ c ++ d).extractLsb' w w = c ∧ (a ++ b ++ c ++ d).extractLsb' 0 w = d := by
  simp (disch := omega) [BitVec.extractLsb'_append_eq_of_le, BitVec.extractLsb'_append_eq_of_add_le]

theorem append4_extract (x : BitVec (w + w + w + w)) :
    x.extractLsb' (w + w + w) w ++ x.extractLsb' (w + w) w ++ x.extractLsb' w w ++ x.extractLsb' 0 w = x := by
  ext k hk
  simp only [BitVec.getElem_append, BitVec.getElem_extractLsb', dite_eq_ite]
  split
  · simp [BitVec.getLsbD_eq_getElem hk]
  · split
    · rw [← BitVec.getLsbD_eq_getElem]; congr 1; omega
    · split
      · rw [← BitVec.getLsbD_eq_getElem]; congr 1; omega
      · rw [← BitVec.getLsbD_eq_getElem]; congr 1; omega

/-! ## A slice replaced -/

section Splice

variable {n m : ℕ}

/-- The bits of `x` from bit `i` on replaced by `v`. -/
def splice (i : ℕ) (v : BitVec n) (x : BitVec w) : BitVec w :=
  (x.extractLsb' (i + n) (w - (i + n)) ++ v ++ x.extractLsb' 0 i).setWidth w

variable {i : ℕ} {v : BitVec n} {x : BitVec w} (h : i + n ≤ w)

include h in
theorem getLsbD_splice (k : ℕ) : (splice i v x).getLsbD k = if i ≤ k ∧ k < i + n then v.getLsbD (k - i) else x.getLsbD k := by
  have hout : w ≤ k → x.getLsbD k = false := BitVec.getLsbD_of_ge x k
  simp only [splice, BitVec.getLsbD_setWidth, BitVec.getLsbD_append, BitVec.getLsbD_extractLsb', Nat.zero_add]
  rcases Nat.lt_or_ge k i with hlt | hge
  · simp [hlt, show k < w by omega]
  · rcases Nat.lt_or_ge k (i + n) with hlt' | hge'
    · simp [hge, hlt', Nat.not_lt.2 hge, show k < w by omega, show k - i < n by omega]
    · simp only [Nat.not_lt.2 hge, Nat.not_lt.2 hge', show ¬ k - i < n by omega, if_false, and_false,
        show i + n + (k - i - n) = k by omega]
      by_cases hk : k < w
      · simp [hk, show k - i - n < w - (i + n) by omega]
      · simp [hk, hout (by omega)]

include h in
theorem extract_splice_self : (splice i v x).extractLsb' i n = v := by
  apply BitVec.eq_of_getLsbD_eq
  intro k hk
  rw [BitVec.getLsbD_extractLsb', getLsbD_splice h, if_pos ⟨by omega, by omega⟩, Nat.add_sub_cancel_left]
  simp [hk]

include h in
/-- A slice of what was put in. -/
theorem extract_splice_within {j : ℕ} (hj : i ≤ j) (hm : j + m ≤ i + n) :
    (splice i v x).extractLsb' j m = v.extractLsb' (j - i) m := by
  apply BitVec.eq_of_getLsbD_eq
  intro k hk
  rw [BitVec.getLsbD_extractLsb', BitVec.getLsbD_extractLsb', getLsbD_splice h, if_pos ⟨by omega, by omega⟩,
    show j + k - i = j - i + k by omega]

include h in
theorem extract_splice_of_le {j : ℕ} (hj : j + m ≤ i) : (splice i v x).extractLsb' j m = x.extractLsb' j m := by
  apply BitVec.eq_of_getLsbD_eq
  intro k hk
  rw [BitVec.getLsbD_extractLsb', BitVec.getLsbD_extractLsb', getLsbD_splice h, if_neg (by omega)]

include h in
theorem extract_splice_of_ge {j : ℕ} (hj : i + n ≤ j) : (splice i v x).extractLsb' j m = x.extractLsb' j m := by
  apply BitVec.eq_of_getLsbD_eq
  intro k hk
  rw [BitVec.getLsbD_extractLsb', BitVec.getLsbD_extractLsb', getLsbD_splice h, if_neg (by omega)]

/-! A concatenation with slices of `x` in their places. -/

section Append

variable {a b c d : ℕ}

theorem append_eq_splice (u : BitVec a) (x : BitVec (a + b)) : u ++ x.extractLsb' 0 b = splice b u x := by
  apply BitVec.eq_of_getLsbD_eq
  intro k hk
  rw [getLsbD_splice (by omega), BitVec.getLsbD_append, BitVec.getLsbD_extractLsb', Nat.zero_add]
  by_cases h : k < b
  · simp [h, Nat.not_le.2 h]
  · simp [h, Nat.not_lt.1 h, show k < b + a by omega]

theorem append3_eq_splice (v : BitVec b) (x : BitVec (a + b + c)) :
    x.extractLsb' (c + b) a ++ v ++ x.extractLsb' 0 c = splice c v x := by
  apply BitVec.eq_of_getLsbD_eq
  intro k hk
  rw [getLsbD_splice (by omega)]
  simp only [BitVec.getLsbD_append, BitVec.getLsbD_extractLsb', Nat.zero_add]
  by_cases h : k < c
  · simp [h, Nat.not_le.2 h]
  by_cases h' : k - c < b
  · simp [h, h', Nat.not_lt.1 h, show k < c + b by omega]
  · simp [h, h', show ¬ k < c + b by omega, show k - c - b < a by omega, show c + b + (k - c - b) = k by omega]

theorem append4_eq_splice (u : BitVec a) (v : BitVec c) (x : BitVec (a + b + c + d)) :
    u ++ x.extractLsb' (d + c) b ++ v ++ x.extractLsb' 0 d = splice (d + c + b) u (splice d v x) := by
  apply BitVec.eq_of_getLsbD_eq
  intro k hk
  rw [getLsbD_splice (by omega), getLsbD_splice (by omega)]
  simp only [BitVec.getLsbD_append, BitVec.getLsbD_extractLsb', Nat.zero_add]
  by_cases h : k < d
  · simp [h, Nat.not_le.2 h, show ¬ d + c + b ≤ k by omega]
  by_cases h' : k - d < c
  · simp [h, h', Nat.not_lt.1 h, show k < d + c by omega, show ¬ d + c + b ≤ k by omega]
  by_cases h'' : k - d - c < b
  · simp [h, h', h'', show ¬ k < d + c by omega, show ¬ d + c + b ≤ k by omega, show d + c + (k - d - c) = k by omega]
  · simp [h, h', h'', show d + c + b ≤ k by omega, show k < d + c + b + a by omega, show k - d - c - b = k - (d + c + b) by omega]

end Append

end Splice

/-! ## A bit shifted in -/

section ShiftIn

variable (x : BitVec w) (y : BitVec 1) {n m : ℕ}

theorem shiftIn_zero : (x.extractLsb' 0 n ++ y).getLsbD 0 = y.getLsbD 0 := by
  rw [BitVec.getLsbD_append, if_pos Nat.zero_lt_one]

theorem shiftIn_succ (hm : m < n) : (x.extractLsb' 0 n ++ y).getLsbD (m + 1) = x.getLsbD m := by
  rw [BitVec.getLsbD_append, if_neg (by omega), Nat.add_sub_cancel, BitVec.getLsbD_extractLsb']
  simp [hm]

/-- The last bits that came in, the first of them on top, and one more. -/
theorem shiftIn_bits {x : BitVec w} {f : ℕ → Bool} (h : ∀ j < m, x.getLsbD (m - 1 - j) = f j) (hm : m ≤ n) :
    ∀ j < m + 1, (x.extractLsb' 0 n ++ BitVec.ofBool (f m)).getLsbD (m + 1 - 1 - j) = f j := by
  intro j hj
  rcases Nat.lt_succ_iff_lt_or_eq.1 hj with hlt | rfl
  · rw [show m + 1 - 1 - j = m - 1 - j + 1 by omega, shiftIn_succ _ _ (by omega), h j hlt]
  · rw [Nat.add_sub_cancel, Nat.sub_self, shiftIn_zero]
    simp

theorem shiftLeft_succ_zero (k : ℕ) : (x <<< (k + 1)).getLsbD 0 = false := by
  simp

theorem shiftLeft_succ_succ (k : ℕ) (hm : m + 1 < w) : (x <<< (k + 1)).getLsbD (m + 1) = (x <<< k).getLsbD m := by
  simp [hm, Nat.lt_of_succ_lt hm]

end ShiftIn
end Concat
