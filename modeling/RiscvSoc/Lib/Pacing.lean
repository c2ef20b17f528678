import RiscvSoc.Lib.Counters
import RiscvSoc.Lib.Sync
/-!
# Stages of one length

A counter runs from 0 up to a divider and a machine goes on by one stage when it gets
there. While the divider stays as it is the stages are of its length.
-/

namespace Pacing

open Sync

/-! ## Cycles and stages -/

/-- Cycle `m` is cycle `c` of stage `k`. -/
theorem exists_slot {d K m : ℕ} (hm : m < K * d) : ∃ k < K, ∃ c < d, m = k * d + c := by
  have hd : 0 < d := Nat.pos_of_ne_zero (by rintro rfl; simp at hm)
  exact ⟨m / d, (Nat.div_lt_iff_lt_mul hd).2 hm, m % d, Nat.mod_lt m hd, (Nat.div_add_mod' m d).symm⟩

theorem slot_lt {d K k c : ℕ} (hk : k < K) (hc : c < d) : k * d + c < K * d := by
  have h : (k + 1) * d ≤ K * d := Nat.mul_le_mul_right d hk
  rw [Nat.succ_mul] at h
  omega

/-- A cycle from the beginning of stage `k'` on is in that stage or in a later one. -/
theorem le_slot_iff {d k k' c : ℕ} (hc : c < d) : k' * d ≤ k * d + c ↔ k' ≤ k := by
  constructor
  · intro h
    by_contra hlt
    have hle : (k + 1) * d ≤ k' * d := Nat.mul_le_mul_right d (by omega)
    rw [Nat.succ_mul] at hle
    omega
  · intro h
    have hle : k' * d ≤ k * d := Nat.mul_le_mul_right d h
    omega

/-- Where the stages begin in the cycle after `t`, the last cycle of stage `k`. -/
theorem slot_last {d : ℕ} (hd : 0 < d) (t k : ℕ) : t + 1 + (k * d + (d - 1)) = t + (k + 1) * d := by
  rw [Nat.succ_mul]
  omega

/-- The end of a stage is the end of its last cycle. -/
theorem slot_end_iff {d k k' c : ℕ} (hc : c < d) : k * d + (c + 1) = k' * d ↔ c + 1 = d ∧ k' = k + 1 := by
  constructor
  · intro h
    have hd : 0 < d := by omega
    have hlt : k < k' := Nat.lt_of_mul_lt_mul_right (a := d) (by omega)
    have hle : (k + 1) * d ≤ k' * d := Nat.mul_le_mul_right d hlt
    rw [Nat.succ_mul] at hle
    have hend : c + 1 = d := by omega
    refine ⟨hend, (Nat.eq_of_mul_eq_mul_right hd ?_).symm⟩
    rw [← h, hend, Nat.succ_mul]
  · rintro ⟨hend, rfl⟩
    rw [hend, Nat.succ_mul]

section Grid

variable {σ ι : Type*} {step : Bool → σ → ι → σ} (r : Run step)

/-- A machine that stays in stage `k` until the counter is at `d - 1`, and then goes on to
stage `k + 1`, is in it for the `d` cycles from `a + k * d` on. -/
theorem grid (cnt : σ → ℕ) {P : ℕ → σ → Prop} {a d K : ℕ} (hd : 0 < d) (start : P 0 (r.st a) ∧ cnt (r.st a) = 0)
    (wait : ∀ k < K, ∀ c, c + 1 < d → ∀ n, n = a + (k * d + c) → P k (r.st n) → cnt (r.st n) = c →
      P k (r.st (n + 1)) ∧ cnt (r.st (n + 1)) = c + 1)
    (tick : ∀ k < K, ∀ n, n + 1 = a + (k + 1) * d → P k (r.st n) → cnt (r.st n) + 1 = d →
      P (k + 1) (r.st (n + 1)) ∧ cnt (r.st (n + 1)) = 0) :
    (∀ k < K, ∀ c < d, P k (r.st (a + (k * d + c))) ∧ cnt (r.st (a + (k * d + c))) = c) ∧ P K (r.st (a + K * d)) := by
  have row (k : ℕ) (hk : k < K) (h0 : P k (r.st (a + k * d)) ∧ cnt (r.st (a + k * d)) = 0) (c : ℕ) (hc : c < d) :
      P k (r.st (a + (k * d + c))) ∧ cnt (r.st (a + (k * d + c))) = c := by
    induction c with
    | zero => exact h0
    | succ c ih =>
      obtain ⟨hp, hcnt⟩ := ih (by omega)
      exact wait k hk c hc _ rfl hp hcnt
  have col (k : ℕ) (hk : k ≤ K) : P k (r.st (a + k * d)) ∧ cnt (r.st (a + k * d)) = 0 := by
    induction k with
    | zero => simpa using start
    | succ k ih =>
      obtain ⟨hp, hcnt⟩ := row k hk (ih (by omega)) (d - 1) (by omega)
      have hn : a + (k * d + (d - 1)) + 1 = a + (k + 1) * d := by
        rw [Nat.succ_mul]
        omega
      rw [← hn]
      exact tick k hk _ hn hp (by omega)
  exact ⟨fun k hk => row k hk (col k (by omega)), (col K le_rfl).1⟩

/-- The same for a machine that ticks when a counter of `w` bits is at `d - 1`, and counts
up otherwise. -/
theorem grid_divided {w : ℕ} (cnt : σ → BitVec w) (tick : σ → Bool) {P : ℕ → σ → Prop} {a K : ℕ} {d : BitVec w}
    (hd : d ≠ 0#w) (htick : ∀ k < K, ∀ s, P k s → (tick s = true ↔ (cnt s).toNat + 1 = d.toNat))
    (start : P 0 (r.st a) ∧ cnt (r.st a) = 0#w)
    (wait : ∀ k < K, ∀ n, a ≤ n → n + 1 < a + K * d.toNat → P k (r.st n) → tick (r.st n) = false →
      P k (r.st (n + 1)) ∧ cnt (r.st (n + 1)) = cnt (r.st n) + 1#w)
    (next : ∀ k < K, ∀ n, n + 1 = a + (k + 1) * d.toNat → P k (r.st n) → tick (r.st n) = true →
      P (k + 1) (r.st (n + 1)) ∧ cnt (r.st (n + 1)) = 0#w) :
    (∀ k < K, ∀ c < d.toNat, P k (r.st (a + (k * d.toNat + c))) ∧
        (tick (r.st (a + (k * d.toNat + c))) = true ↔ c + 1 = d.toNat)) ∧ P K (r.st (a + K * d.toNat)) := by
  have hpos : 0 < d.toNat := Nat.pos_of_ne_zero (Counters.toNat_ne_zero hd)
  have hzero : (0#w).toNat = 0 := by simp
  obtain ⟨hin, hend⟩ := grid r (fun s => (cnt s).toNat) hpos ⟨start.1, by rw [start.2, hzero]⟩
    (fun k hk c hc n hn hp hcnt => by
      have hno : tick (r.st n) = false := by
        rw [← Bool.not_eq_true, htick k hk _ hp, hcnt]
        omega
      have hin := slot_lt hk hc
      obtain ⟨hp', hcnt'⟩ := wait k hk n (by omega) (by omega) hp hno
      have hlt := d.isLt
      exact ⟨hp', by rw [hcnt', Counters.toNat_succ (by omega), hcnt]⟩)
    (fun k hk n hn hp hcnt => by
      obtain ⟨hp', hcnt'⟩ := next k hk n hn hp ((htick k hk _ hp).2 hcnt)
      exact ⟨hp', by rw [hcnt', hzero]⟩)
  refine ⟨fun k hk c hc => ?_, hend⟩
  obtain ⟨hp, hcnt⟩ := hin k hk c hc
  exact ⟨hp, by rw [htick k hk _ hp, hcnt]⟩

end Grid

end Pacing
