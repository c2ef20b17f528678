import Mathlib.Data.BitVec
import Mathlib.Tactic.IntervalCases
import Mathlib.Tactic.Ring
/-!
# Carry-save addition and multiplication by shifts

Three words become two with the same sum: chunks of `c` bits are added on their own, and
the carry out of each is kept in a word of carries instead of going into the next chunk.
A multiplier adds its partial products so, and needs no carry from one end of the word to
the other. Once the partial products stop touching the lower chunks, the carries leave
them, one bit for each addition.
-/

namespace CarrySave

variable {n : ℕ} (c : ℕ)

/-- Chunk `k` of a word. -/
def chunk (x : BitVec n) (k : ℕ) : BitVec c := x.extractLsb' (c * k) c

/-- The sum of the three chunks `k`, and the carry out of it on top. -/
def chunkSum (x y z : BitVec n) (k : ℕ) : BitVec (c + 1) :=
  (chunk c x k).setWidth (c + 1) + (chunk c y k).setWidth (c + 1) + (chunk c z k).setWidth (c + 1)

/-- The word with the bits `f`. -/
def ofBits (f : ℕ → Bool) : BitVec n := (BitVec.iunfoldr (fun i (_ : Unit) => ((), f i)) ()).2

/-- The sums of the chunks, without the carries. -/
def sum (x y z : BitVec n) : BitVec n := ofBits fun i => (chunkSum c x y z (i / c)).getLsbD (i % c)

/-- The carries, each at the top bit of its chunk. -/
def carryOut (x y z : BitVec n) : BitVec n :=
  ofBits fun i => i % c == c - 1 && (chunkSum c x y z (i / c)).getLsbD c

/-- The carries, each where it is to be added. -/
def carry (x y z : BitVec n) : BitVec n := carryOut c x y z <<< 1

/-- At most one bit in each chunk, the lowest: a word of carries. -/
def Carries (y : BitVec n) : Prop := ∀ k, (chunk c y k).toNat ≤ 1

variable {c} {x y z : BitVec n}

theorem getLsbD_ofBits {f : ℕ → Bool} {i : ℕ} (hi : i < n) : (ofBits (n := n) f).getLsbD i = f i :=
  BitVec.iunfoldr_getLsbD (fun _ => ()) ⟨i, hi⟩ fun _ => rfl

theorem chunk_toNat (x : BitVec n) (k : ℕ) : (chunk c x k).toNat = x.toNat / 2 ^ (c * k) % 2 ^ c := by
  simp [chunk, BitVec.extractLsb'_toNat, Nat.shiftRight_eq_div_pow]

/-- The sum of the chunks fits: it never loses more than the carry on top. -/
theorem chunkSum_toNat (hy : Carries c y) (k : ℕ) :
    (chunkSum c x y z k).toNat = (chunk c x k).toNat + (chunk c y k).toNat + (chunk c z k).toNat := by
  have hx := (chunk c x k).isLt
  have hz := (chunk c z k).isLt
  have hy := hy k
  have hp : 2 ^ (c + 1) = 2 * 2 ^ c := by rw [Nat.pow_succ, Nat.mul_comm]
  have hw (v : BitVec c) : (v.setWidth (c + 1)).toNat = v.toNat :=
    BitVec.toNat_setWidth_of_le (Nat.le_succ c)
  rw [chunkSum, BitVec.toNat_add, BitVec.toNat_add, Nat.mod_add_mod, hw, hw, hw, Nat.mod_eq_of_lt (by omega)]

/-! ## Bits of the word of carries -/

theorem carry_bit_zero : (carry c x y z).getLsbD 0 = false := by
  simp [carry]

theorem carry_bit_succ {i : ℕ} (hi : i + 1 < n) :
    (carry c x y z).getLsbD (i + 1) = (i % c == c - 1 && (chunkSum c x y z (i / c)).getLsbD c) := by
  rw [carry, BitVec.getLsbD_shiftLeft, carryOut, getLsbD_ofBits (by omega)]
  simp [hi]

/-! ## Chunks of the two words -/

section Chunks

variable (hc : 0 < c) {k : ℕ}

include hc in
theorem index_div {i : ℕ} (hi : i < c) : (c * k + i) / c = k ∧ (c * k + i) % c = i := by
  rw [Nat.mul_add_div hc, Nat.div_eq_of_lt hi, Nat.mul_add_mod, Nat.mod_eq_of_lt hi]
  exact ⟨rfl, rfl⟩

include hc in
theorem chunk_sum (hk : c * (k + 1) ≤ n) :
    (chunk c (sum c x y z) k).toNat = (chunkSum c x y z k).toNat % 2 ^ c := by
  rw [← BitVec.toNat_setWidth]
  congr 1
  ext i hi
  have hn : c * k + i < n := by rw [Nat.mul_succ] at hk; omega
  obtain ⟨hd, hm⟩ := index_div hc (k := k) hi
  rw [chunk, BitVec.getElem_extractLsb', sum, getLsbD_ofBits hn, BitVec.getElem_setWidth]
  simp only [hd, hm]

theorem chunk_carry_zero (hn : c ≤ n) : (chunk c (carry c x y z) 0).toNat = 0 := by
  rw [show chunk c (carry c x y z) 0 = 0#c from ?_, BitVec.toNat_ofNat, Nat.zero_mod]
  ext i hi
  rw [chunk, BitVec.getElem_extractLsb', Nat.mul_zero, Nat.zero_add, BitVec.getElem_zero]
  rcases i with _ | i
  · exact carry_bit_zero
  · rw [carry_bit_succ (by omega), Nat.mod_eq_of_lt (by omega), beq_eq_false_iff_ne.2 (by omega), Bool.false_and]

theorem toNat_div_top (v : BitVec (c + 1)) : v.toNat / 2 ^ c = (v.getLsbD c).toNat := by
  have hv : v.toNat / 2 ^ c < 2 := Nat.div_lt_of_lt_mul (by rw [← Nat.pow_succ]; exact v.isLt)
  rw [BitVec.getLsbD, Nat.testBit_eq_decide_div_mod_eq, Nat.mod_eq_of_lt hv]
  interval_cases v.toNat / 2 ^ c <;> rfl

include hc in
/-- The carry out of a chunk is the one bit of the chunk above it. -/
theorem chunk_carry_succ (hk : c * (k + 2) ≤ n) :
    (chunk c (carry c x y z) (k + 1)).toNat = (chunkSum c x y z k).toNat / 2 ^ c := by
  rw [show chunk c (carry c x y z) (k + 1) = (BitVec.ofBool ((chunkSum c x y z k).getLsbD c)).setWidth c from ?_,
    BitVec.toNat_setWidth, BitVec.toNat_ofBool, toNat_div_top]
  · exact Nat.mod_eq_of_lt ((Bool.toNat_lt _).trans_le (Nat.le_self_pow hc.ne' 2))
  · ext i hi
    have hn : c * (k + 1) + i < n := by rw [Nat.mul_succ] at hk; omega
    rw [chunk, BitVec.getElem_extractLsb', BitVec.getElem_setWidth, BitVec.getLsbD_ofBool]
    rcases i with _ | i
    · obtain ⟨hd, hm⟩ := index_div hc (k := k) (i := c - 1) (by omega)
      have hidx : c * (k + 1) + 0 = c * k + (c - 1) + 1 := by rw [Nat.mul_succ]; omega
      rw [hidx, carry_bit_succ (by omega), hd, hm]
      simp
    · obtain ⟨hd, hm⟩ := index_div hc (k := k + 1) (i := i) (by omega)
      rw [← Nat.add_assoc, carry_bit_succ (by omega), hd, hm, beq_eq_false_iff_ne.2 (by omega)]
      simp

include hc in
/-- The carries are a word of carries again. -/
theorem carries_carry {m : ℕ} (hn : n = c * m) : Carries c (carry c x y z) := by
  intro k
  rcases Nat.lt_or_ge k m with hk | hk
  · rcases k with _ | k
    · rw [chunk_carry_zero (hn ▸ Nat.le_mul_of_pos_right c (by omega))]
      exact Nat.zero_le 1
    · rw [chunk_carry_succ hc (hn ▸ Nat.mul_le_mul_left c hk), toNat_div_top]
      exact Bool.toNat_le _
  · rw [chunk_toNat, Nat.div_eq_of_lt ((carry c x y z).isLt.trans_le (Nat.pow_le_pow_right two_pos ?_))]
    · simp
    · exact hn ▸ Nat.mul_le_mul_left c hk

end Chunks

/-! ## The two words have the sum of the three -/

theorem mod_pow_chunk (x : BitVec n) (k : ℕ) :
    x.toNat % 2 ^ (c * (k + 1)) = x.toNat % 2 ^ (c * k) + 2 ^ (c * k) * (chunk c x k).toNat := by
  rw [chunk_toNat, Nat.mul_succ, Nat.pow_add, Nat.mod_mul]

/-- The lower chunks of the sums, and one more of the carries, add up to those of the words. -/
theorem sum_add_carry_mod (hc : 0 < c) (hy : Carries c y) {k : ℕ} (hk : c * (k + 1) ≤ n) :
    (sum c x y z).toNat % 2 ^ (c * k) + (carry c x y z).toNat % 2 ^ (c * (k + 1)) =
      x.toNat % 2 ^ (c * k) + y.toNat % 2 ^ (c * k) + z.toNat % 2 ^ (c * k) := by
  induction k with
  | zero =>
    rw [mod_pow_chunk _ 0, chunk_carry_zero (by omega)]
    simp [Nat.mod_one]
  | succ k ih =>
    have hle : c * (k + 1) ≤ n := (Nat.mul_le_mul_left c (by omega)).trans hk
    have hdiv := Nat.mod_add_div (chunkSum c x y z k).toNat (2 ^ c)
    have hp : 2 ^ (c * (k + 1)) = 2 ^ (c * k) * 2 ^ c := by rw [Nat.mul_succ, Nat.pow_add]
    rw [mod_pow_chunk _ (k + 1), chunk_carry_succ hc hk, mod_pow_chunk _ k, chunk_sum hc hle, mod_pow_chunk x, mod_pow_chunk y,
      mod_pow_chunk z]
    calc _ = (sum c x y z).toNat % 2 ^ (c * k) + (carry c x y z).toNat % 2 ^ (c * (k + 1)) +
          2 ^ (c * k) * ((chunkSum c x y z k).toNat % 2 ^ c + 2 ^ c * ((chunkSum c x y z k).toNat / 2 ^ c)) := by
            rw [hp]; ring
      _ = _ := by rw [hdiv, ih hle, chunkSum_toNat hy]; ring

/-- The sums of the chunks and the carries have the sum of the three words. -/
theorem sum_add_carry (hc : 0 < c) {m : ℕ} (hn : n = c * m) (hy : Carries c y) :
    sum c x y z + carry c x y z = x + y + z := by
  rcases m with _ | m
  · obtain rfl : n = 0 := hn
    exact Subsingleton.elim _ _
  · have hle : c * (m + 1) ≤ n := hn.ge
    have low := sum_add_carry_mod (x := x) (z := z) hc hy hle
    have whole (v : BitVec n) : v.toNat = v.toNat % 2 ^ (c * m) + 2 ^ (c * m) * (chunk c v m).toNat := by
      rw [← mod_pow_chunk, ← hn, Nat.mod_eq_of_lt v.isLt]
    have hdiv := Nat.mod_add_div (chunkSum c x y z m).toNat (2 ^ c)
    have hp : 2 ^ n = 2 ^ (c * m) * 2 ^ c := by rw [hn, Nat.mul_succ, Nat.pow_add]
    rw [← hn, Nat.mod_eq_of_lt (carry c x y z).isLt] at low
    -- the carry out of the top chunk is lost
    have total : (sum c x y z).toNat + (carry c x y z).toNat + 2 ^ n * ((chunkSum c x y z m).toNat / 2 ^ c) =
        x.toNat + y.toNat + z.toNat := by
      rw [whole (sum c x y z), chunk_sum hc hle, whole x, whole y, whole z]
      calc _ = (sum c x y z).toNat % 2 ^ (c * m) + (carry c x y z).toNat +
            2 ^ (c * m) * ((chunkSum c x y z m).toNat % 2 ^ c + 2 ^ c * ((chunkSum c x y z m).toNat / 2 ^ c)) := by
              rw [hp]; ring
        _ = _ := by rw [hdiv, low, chunkSum_toNat hy]; ring
    apply BitVec.eq_of_toNat_eq
    rw [BitVec.toNat_add, BitVec.toNat_add, BitVec.toNat_add, Nat.mod_add_mod, ← total, Nat.add_mul_mod_self_left]

/-! ## The carries leave the lower bits -/

theorem chunk_eq_zero {k p : ℕ} (h : ∀ i < p, y.getLsbD i = false) (hk : c * (k + 1) ≤ p) : chunk c y k = 0#c := by
  ext i hi
  rw [Nat.mul_succ] at hk
  rw [chunk, BitVec.getElem_extractLsb', h _ (by omega), BitVec.getElem_zero]

/-- Where carries and addend have no bit below `p`, the new carries have none up to `p`. -/
theorem carry_drained {p : ℕ} (hy : ∀ i < p, y.getLsbD i = false) (hz : ∀ i < p, z.getLsbD i = false) :
    ∀ i < p + 1, (carry c x y z).getLsbD i = false := by
  intro i hi
  rcases i with _ | i
  · exact carry_bit_zero
  · rcases Nat.lt_or_ge (i + 1) n with hn | hn
    · rw [carry_bit_succ hn, Bool.and_eq_false_iff, beq_eq_false_iff_ne]
      refine or_iff_not_imp_left.2 fun htop => ?_
      -- the bit would be the carry out of a chunk that holds nothing but bits of `x`
      have hk : c * (i / c + 1) ≤ p := by
        have hi' := Nat.div_add_mod i c
        rw [Nat.mul_succ]; omega
      rw [chunkSum, chunk_eq_zero hy hk, chunk_eq_zero hz hk]
      simp
    · exact BitVec.getLsbD_of_ge _ _ hn

/-! ## Multiplication by shifts -/

/-- A multiplication under way: what is left of the multiplier, the multiplicand shifted up
as far, and the sum so far in two words. -/
structure Mul (n : ℕ) where
  multiplier : BitVec n
  multiplicand : BitVec n
  acc : BitVec n
  carries : BitVec n

namespace Mul

variable (c)

/-- One bit of the multiplier. -/
def step (s : Mul n) : Mul n :=
  let addend := if s.multiplier.getLsbD 0 then s.multiplicand else 0#n
  { multiplier := s.multiplier >>> 1
    multiplicand := s.multiplicand <<< 1
    acc := sum c s.acc s.carries addend
    carries := carry c s.acc s.carries addend }

/-- The product is split between what has been summed and what is still to be. -/
def value (s : Mul n) : BitVec n := s.acc + s.carries + s.multiplier * s.multiplicand

/-- After `k` bits of the multiplier the carries and the multiplicand have left the lower `k` bits. -/
structure Drained (k : ℕ) (s : Mul n) : Prop where
  carries : Carries c s.carries
  carries_low : ∀ i < k, s.carries.getLsbD i = false
  multiplicand_low : ∀ i < k, s.multiplicand.getLsbD i = false

variable {c}

theorem halves (a : BitVec n) (hn : 0 < n) : a = (a >>> 1) * 2#n + (if a.getLsbD 0 then 1#n else 0#n) := by
  apply BitVec.eq_of_toNat_eq
  have h2 : (if a.getLsbD 0 then 1#n else 0#n).toNat = a.toNat % 2 := by
    rw [BitVec.getLsbD, Nat.testBit_zero]
    rcases Nat.mod_two_eq_zero_or_one a.toNat with h | h <;> simp [h, hn]
  rw [BitVec.toNat_add, BitVec.toNat_mul, BitVec.toNat_ushiftRight, Nat.mod_add_mod, h2, BitVec.toNat_ofNat,
    Nat.shiftRight_eq_div_pow, Nat.add_mod, Nat.mul_mod_mod, ← Nat.add_mod, pow_one, Nat.mul_comm, Nat.div_add_mod,
    Nat.mod_eq_of_lt a.isLt]

theorem shiftAdd (a b : BitVec n) (hn : 0 < n) :
    (if a.getLsbD 0 then b else 0#n) + (a >>> 1) * (b <<< 1) = a * b := by
  have hb : b <<< 1 = 2#n * b := by
    apply BitVec.eq_of_toNat_eq
    rw [BitVec.toNat_shiftLeft, BitVec.toNat_mul, BitVec.toNat_ofNat, Nat.mod_mul_mod, Nat.shiftLeft_eq, pow_one,
      Nat.mul_comm]
  conv_rhs => rw [halves a hn]
  rw [hb]
  split <;> simp [BitVec.add_mul, BitVec.mul_assoc, BitVec.add_comm]

theorem drained_step (hc : 0 < c) {m : ℕ} (hn : n = c * m) {k : ℕ} {s : Mul n} (h : Drained c k s) :
    Drained c (k + 1) (step c s) := by
  have haddend : ∀ i < k, (if s.multiplier.getLsbD 0 then s.multiplicand else 0#n).getLsbD i = false := by
    intro i hi
    split
    · exact h.multiplicand_low i hi
    · exact BitVec.getLsbD_zero
  refine ⟨carries_carry hc hn, carry_drained h.carries_low haddend, fun i hi => ?_⟩
  rcases i with _ | i
  · simp [step]
  · simp [step, h.multiplicand_low i (by omega)]

theorem value_step (hc : 0 < c) {m : ℕ} (hn : n = c * m) {k : ℕ} {s : Mul n} (h : Drained c k s) :
    value (step c s) = value s := by
  rcases Nat.eq_zero_or_pos n with rfl | hpos
  · exact Subsingleton.elim _ _
  · simp only [value, step, sum_add_carry hc hn h.carries, add_assoc, shiftAdd _ _ hpos]

/-- The multiplication of `a` and `b` from its start. -/
def start (a b : BitVec n) : Mul n := ⟨a, b, 0#n, 0#n⟩

theorem drained_start (a b : BitVec n) : Drained c 0 (start a b) :=
  ⟨fun k => by simp [start, chunk_toNat], fun i hi => absurd hi i.not_lt_zero, fun i hi => absurd hi i.not_lt_zero⟩

/-- After `k` bits of the multiplier: the value is the product still, and what is left of
the multiplier are its bits from `k` on. -/
theorem iterate_step (hc : 0 < c) {m : ℕ} (hn : n = c * m) (a b : BitVec n) (k : ℕ) :
    let s := (step c)^[k] (start a b)
    Drained c k s ∧ value s = a * b ∧ s.multiplier = a >>> k := by
  induction k with
  | zero => exact ⟨drained_start a b, by simp [value, start], by simp [start]⟩
  | succ k ih =>
    obtain ⟨hd, hv, hm⟩ := ih
    simp only [Function.iterate_succ_apply']
    refine ⟨drained_step hc hn hd, (value_step hc hn hd).trans hv, ?_⟩
    exact (congrArg (fun x : BitVec n => x >>> 1) hm).trans (BitVec.shiftRight_add a k 1)

/-- Once the bits of the multiplier are used up, the sums alone are the product, as far up
as it had bits: no carry is left there. -/
theorem acc_eq_mul (hc : 0 < c) {m : ℕ} (hn : n = c * m) {a : BitVec n} (b : BitVec n) {k : ℕ} (ha : a.toNat < 2 ^ k) {i : ℕ}
    (hi : i ≤ k) (hin : i ≤ n) : ((step c)^[k] (start a b)).acc.setWidth i = (a * b).setWidth i := by
  obtain ⟨hd, hv, hm⟩ := iterate_step hc hn a b k
  have hm0 : a >>> k = 0#n := by
    apply BitVec.eq_of_toNat_eq
    rw [BitVec.toNat_ushiftRight, Nat.shiftRight_eq_div_pow, Nat.div_eq_of_lt ha, BitVec.toNat_ofNat, Nat.zero_mod]
  have hc0 : ((step c)^[k] (start a b)).carries.setWidth i = 0#i := by
    ext j hj
    rw [BitVec.getElem_setWidth, hd.carries_low j (by omega), BitVec.getElem_zero]
  rw [← hv, value, hm, hm0, BitVec.zero_mul, BitVec.add_zero, BitVec.setWidth_add _ _ hin, hc0, BitVec.add_zero]

end Mul

end CarrySave
