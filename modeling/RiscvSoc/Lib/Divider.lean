import Mathlib.Data.Nat.Count
import RiscvSoc.Lib.Counters
/-!
# Machines that a divider paces

A counter runs while a transfer is in flight, and the transfer goes on by one step when
the counter is one less than a divider. The divider may be written in any cycle: the ticks
keep coming exactly when no write puts it at or below the counter.
-/

namespace Divider

/-- The signals of such a machine, cycle by cycle, and what an edge does to them. -/
structure Paced (w : ℕ) where
  start : ℕ → Bool
  active : ℕ → Bool
  done : ℕ → Bool
  cnt : ℕ → BitVec w
  div : ℕ → BitVec w
  /-- What is stored in the divider. -/
  write : ℕ → Option (BitVec w)
  /-- The ticks that are left of a transfer, and those of a whole one. -/
  left : ℕ → ℕ
  total : ℕ
  reset_edge : active 0 = false
  div_ne : ∀ n, div n ≠ 0#w
  div_edge : ∀ n, div (n + 1) = (write n).getD (div n)
  idle_edge : ∀ n, active n = false → start n = false → active (n + 1) = false
  start_edge : ∀ n, start n = true → active (n + 1) = true ∧ cnt (n + 1) = 0#w ∧ left (n + 1) = total
  wait_edge : ∀ n, active n = true → cnt n ≠ div n - 1#w →
    active (n + 1) = true ∧ cnt (n + 1) = cnt n + 1#w ∧ left (n + 1) = left n
  tick_edge : ∀ n, active n = true → cnt n = div n - 1#w → 0 < left n ∧
    ((active (n + 1) = true ∧ cnt (n + 1) = 0#w ∧ left (n + 1) < left n) ∨
      (active (n + 1) = false ∧ done (n + 1) = true))

namespace Paced

variable {w : ℕ} (p : Paced w)

def tick (n : ℕ) : Bool := p.active n && p.cnt n = p.div n - 1#w

/-- Every write to the divider in flight that does not come with a tick stores more than
the counter will be at. -/
def WritesAbove : Prop :=
  ∀ n v, p.active n = true → p.tick n = false → p.write n = some v → (p.cnt n).toNat + 1 < v.toNat

/-- The transfer in flight in cycle `n` ends with done after `m` cycles, in which there are at
most `l` ticks and which are at most `l` times as many as the divider ever says. -/
structure Ends (n m l : ℕ) : Prop where
  active : ∀ j < m, p.active (n + j) = true
  ended : p.active (n + m) = false
  done : p.done (n + m) = true
  ticks : Nat.count (fun j => p.tick (n + j)) m ≤ l
  cycles : ∀ d, (∀ j < m, (p.div (n + j)).toNat ≤ d) → m ≤ l * d

/-- In flight the counter is below the divider and does not wrap, the next tick comes before
as many cycles as the divider then says, and a start leads to done in `total` ticks. -/
structure Unstalled : Prop where
  below : ∀ n, p.active n = true → p.cnt n < p.div n
  counts : ∀ n, p.active n = true → p.tick n = false → (p.cnt (n + 1)).toNat = (p.cnt n).toNat + 1
  ticks : ∀ n, p.active n = true →
    ∃ k < (p.div (n + k)).toNat, (∀ j < k, p.tick (n + j) = false) ∧ p.tick (n + k) = true
  finishes : ∀ n, p.start n = true → ∃ m, p.Ends (n + 1) m p.total

variable {p} {n : ℕ}

theorem tick_false (ha : p.active n = true) (ht : p.tick n = false) : p.cnt n ≠ p.div n - 1#w := by
  simpa [tick, ha] using ht

theorem tick_true (ht : p.tick n = true) : p.cnt n = p.div n - 1#w := by
  simp only [tick, Bool.and_eq_true, decide_eq_true_eq] at ht
  exact ht.2

theorem tick_iff (ha : p.active n = true) : p.tick n = true ↔ (p.cnt n).toNat + 1 = (p.div n).toNat := by
  rw [tick, ha, Bool.true_and, decide_eq_true_eq]
  exact Counters.eq_pred_iff (p.div_ne n)

theorem zero_lt_div (n : ℕ) : 0#w < p.div n := by
  have hne := Counters.toNat_ne_zero (p.div_ne n)
  rw [BitVec.lt_def, BitVec.toNat_ofNat, Nat.zero_mod]
  omega

/-! ## The counter -/

theorem count_up (hlt : p.cnt n < p.div n) (ha : p.active n = true) (ht : p.tick n = false) :
    (p.cnt (n + 1)).toNat = (p.cnt n).toNat + 1 := by
  obtain ⟨-, hcnt, -⟩ := p.wait_edge n ha (tick_false ha ht)
  have hmax := (p.div n).isLt
  rw [BitVec.lt_def] at hlt
  rw [hcnt, Counters.toNat_succ (by omega)]

/-- One edge keeps the counter below the divider. -/
theorem below_edge (hw : p.WritesAbove) (hlt : p.active n = true → p.cnt n < p.div n)
    (ha : p.active (n + 1) = true) : p.cnt (n + 1) < p.div (n + 1) := by
  cases hn : p.active n with
  | false =>
    cases hs : p.start n with
    | false => simp [p.idle_edge n hn hs] at ha
    | true =>
      rw [(p.start_edge n hs).2.1]
      exact zero_lt_div _
  | true =>
    cases ht : p.tick n with
    | true =>
      rcases (p.tick_edge n hn (tick_true ht)).2 with ⟨-, hcnt, -⟩ | ⟨hend, -⟩
      · rw [hcnt]
        exact zero_lt_div _
      · simp [hend] at ha
    | false =>
      have hup := count_up (hlt hn) hn ht
      rw [BitVec.lt_def, hup, p.div_edge]
      cases hv : p.write n with
      | none =>
        have hne : ¬ (p.cnt n).toNat + 1 = (p.div n).toNat := by simp [← tick_iff hn, ht]
        have hbelow := hlt hn
        rw [BitVec.lt_def] at hbelow
        rw [Option.getD_none]
        omega
      | some v => exact hw n v hn ht hv

theorem below_of_writesAbove (hw : p.WritesAbove) (n : ℕ) : p.active n = true → p.cnt n < p.div n := by
  induction n with
  | zero => simp [p.reset_edge]
  | succ n ih => exact below_edge hw ih

theorem writesAbove_of_below (h : ∀ n, p.active n = true → p.cnt n < p.div n) : p.WritesAbove := by
  intro n v ha ht hv
  have hnext := h (n + 1) (p.wait_edge n ha (tick_false ha ht)).1
  rw [BitVec.lt_def, count_up (h n ha) ha ht, p.div_edge, hv] at hnext
  exact hnext

/-! ## The ticks -/

/-- The counter goes up for `k` cycles and is at the divider in cycle `n + k`. -/
structure Waits (p : Paced w) (n k : ℕ) : Prop where
  cnt : (p.cnt n).toNat + k + 1 = (p.div (n + k)).toNat
  active : ∀ j ≤ k, p.active (n + j) = true
  no_tick : ∀ j < k, p.tick (n + j) = false
  tick : p.tick (n + k) = true
  left : p.left (n + k) = p.left n

theorem add_succ_shift (n j : ℕ) : n + (j + 1) = n + 1 + j := by omega

theorem Waits.zero (ha : p.active n = true) (ht : p.tick n = true) : p.Waits n 0 := by
  refine ⟨(tick_iff ha).1 ht, fun j hj => ?_, by simp, ht, rfl⟩
  obtain rfl : j = 0 := by omega
  exact ha

theorem Waits.succ {k : ℕ} (hlt : p.cnt n < p.div n) (ha : p.active n = true) (ht : p.tick n = false)
    (h : p.Waits (n + 1) k) : p.Waits n (k + 1) := by
  obtain ⟨-, -, hleft⟩ := p.wait_edge n ha (tick_false ha ht)
  have hup := count_up hlt ha ht
  have hcnt := h.cnt
  refine ⟨?_, fun j hj => ?_, fun j hj => ?_, ?_, ?_⟩
  · rw [add_succ_shift n k]
    omega
  · cases j with
    | zero => exact ha
    | succ j =>
      rw [add_succ_shift]
      exact h.active j (by omega)
  · cases j with
    | zero => exact ht
    | succ j =>
      rw [add_succ_shift]
      exact h.no_tick j (by omega)
  · rw [add_succ_shift]
    exact h.tick
  · rw [add_succ_shift, h.left, hleft]

theorem Waits.count {k : ℕ} (h : p.Waits n k) : Nat.count (fun j => p.tick (n + j)) (k + 1) = 1 := by
  have hzero : Nat.count (fun j => p.tick (n + j) = true) k = 0 := by
    rw [Nat.count_iff_forall_not]
    intro j hj
    simp [h.no_tick j hj]
  rw [Nat.count_succ, hzero, if_pos h.tick]

theorem Waits.le {k d : ℕ} (h : p.Waits n k) (hd : (p.div (n + k)).toNat ≤ d) : k + 1 ≤ d := by
  have hcnt := h.cnt
  omega

/-- A transfer that ends at the tick. -/
theorem Waits.ends {k l : ℕ} (h : p.Waits n k) (hl : 0 < l) (hend : p.active (n + k + 1) = false)
    (hdone : p.done (n + k + 1) = true) : p.Ends n (k + 1) l := by
  refine ⟨fun j hj => h.active j (by omega), hend, hdone, ?_, fun d hd => ?_⟩
  · rw [h.count]
    exact hl
  · calc k + 1 ≤ d := h.le (hd k (by omega))
      _ = 1 * d := (Nat.one_mul d).symm
      _ ≤ l * d := Nat.mul_le_mul_right d hl

/-- A transfer that goes on at the tick. -/
theorem Waits.append {k m l l' : ℕ} (h : p.Waits n k) (hl : l' < l) (he : p.Ends (n + k + 1) m l') :
    p.Ends n (k + 1 + m) l := by
  have hshift (j : ℕ) : n + (k + 1 + j) = n + k + 1 + j := by omega
  refine ⟨fun j hj => ?_, by rw [hshift]; exact he.ended, by rw [hshift]; exact he.done, ?_, fun d hd => ?_⟩
  · rcases Nat.lt_or_ge k j with hkj | hkj
    · obtain ⟨i, rfl⟩ : ∃ i, j = k + 1 + i := Nat.exists_eq_add_of_le hkj
      rw [hshift]
      exact he.active i (by omega)
    · exact h.active j hkj
  · have hrest := he.ticks
    rw [Nat.count_add, h.count]
    simp only [hshift]
    omega
  · have hrest : m ≤ l' * d := he.cycles d fun j hj => by
      rw [← hshift]
      exact hd _ (by omega)
    calc k + 1 + m ≤ d + l' * d := Nat.add_le_add (h.le (hd k (by omega))) hrest
      _ = (l' + 1) * d := by rw [Nat.succ_mul, Nat.add_comm]
      _ ≤ l * d := Nat.mul_le_mul_right d hl

section Below

variable (h : ∀ n, p.active n = true → p.cnt n < p.div n)

include h

theorem exists_waits (ha : p.active n = true) : ∃ k, p.Waits n k := by
  induction hr : 2 ^ w - (p.cnt n).toNat using Nat.strong_induction_on generalizing n with
  | _ r ih =>
    cases ht : p.tick n with
    | true => exact ⟨0, .zero ha ht⟩
    | false =>
      have hup := count_up (h n ha) ha ht
      have hmax := (p.cnt (n + 1)).isLt
      obtain ⟨k, hk⟩ := ih _ (by omega) (p.wait_edge n ha (tick_false ha ht)).1 rfl
      exact ⟨k + 1, hk.succ (h n ha) ha ht⟩

/-- A transfer in flight ends, after at most as many ticks as are left of it. -/
theorem exists_ends (ha : p.active n = true) : ∃ m, p.Ends n m (p.left n) := by
  induction hl : p.left n using Nat.strong_induction_on generalizing n with
  | _ l ih =>
    obtain ⟨k, hk⟩ := exists_waits h ha
    obtain ⟨hpos, hnext⟩ := p.tick_edge (n + k) (hk.active k le_rfl) (tick_true hk.tick)
    rw [hk.left, hl] at hpos hnext
    rcases hnext with ⟨ha', -, hlt⟩ | ⟨hend, hdone⟩
    · obtain ⟨m, hm⟩ := ih _ hlt ha' rfl
      exact ⟨_, hk.append hlt hm⟩
    · exact ⟨_, hk.ends hpos hend hdone⟩

end Below

/-- Writes to the divider cannot stall a transfer exactly when they stay above the counter. -/
theorem unstalled_iff : p.Unstalled ↔ p.WritesAbove := by
  constructor
  · intro h
    exact writesAbove_of_below h.below
  · intro hw
    have h := below_of_writesAbove hw
    refine ⟨h, fun n ha ht => count_up (h n ha) ha ht, fun n ha => ?_, fun n hs => ?_⟩
    · obtain ⟨k, hk⟩ := exists_waits h ha
      exact ⟨k, hk.le le_rfl, hk.no_tick, hk.tick⟩
    · obtain ⟨ha, -, hleft⟩ := p.start_edge n hs
      rw [← hleft]
      exact exists_ends h ha

end Paced

end Divider
