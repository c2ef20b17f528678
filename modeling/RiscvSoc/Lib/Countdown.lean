import Mathlib.Order.Interval.Finset.Nat
import RiscvSoc.Lib.Sticky
/-!
# Counting down

A counter is loaded at some edges, goes down by one at the others that find its enable at 1,
and stops at 0. What it holds is what was loaded less the number of enabled edges since.
-/

namespace Countdown

/-! ## The last time -/

/-- `n` is the last cycle before `m` with `p`. -/
structure Last (p : ℕ → Prop) (n m : ℕ) : Prop where
  before : n < m
  here : p n
  since : ∀ k, n < k → k < m → ¬ p k

namespace Last

variable {p : ℕ → Prop} {n n' m : ℕ}

theorem of_here (h : p n) : Last p n (n + 1) := ⟨n.lt_succ_self, h, fun k h1 h2 => by omega⟩

theorem succ (h : Last p n m) (hm : ¬ p m) : Last p n (m + 1) :=
  ⟨Nat.lt_succ_of_lt h.before, h.here, Sticky.none_succ h.since hm⟩

theorem of_le (h : Last p n m) {k : ℕ} (hn : n < k) (hk : k ≤ m) : Last p n k :=
  ⟨hn, h.here, fun j h1 h2 => h.since j h1 (by omega)⟩

theorem unique (h : Last p n m) (h' : Last p n' m) : n = n' := by
  rcases Nat.lt_trichotomy n n' with hlt | heq | hlt
  · exact absurd h'.here (h.since n' hlt h'.before)
  · exact heq
  · exact absurd h.here (h'.since n hlt h.before)

/-- From the cycle after `n` on, cycle by cycle. -/
theorem induct {Q : ∀ m, Last p n m → Prop} (start : ∀ h : p n, Q (n + 1) (of_here h))
    (next : ∀ k (h : Last p n k) (hk : ¬ p k), Q k h → Q (k + 1) (h.succ hk)) (m : ℕ) (h : Last p n m) : Q m h := by
  obtain ⟨d, rfl⟩ := Nat.exists_eq_add_of_lt h.before
  induction d with
  | zero => exact start h.here
  | succ d ih =>
    have hd : Last p n (n + d + 1) := h.of_le (by omega) (by omega)
    exact next _ hd (h.since _ (by omega) (by omega)) (ih hd)

end Last

theorem exists_last {p : ℕ → Prop} {m : ℕ} (h : ∃ k < m, p k) : ∃ n, Last p n m := by
  induction m with
  | zero =>
    obtain ⟨k, hk, -⟩ := h
    omega
  | succ m ih =>
    by_cases hm : p m
    · exact ⟨m, .of_here hm⟩
    · obtain ⟨k, hk, hp⟩ := h
      have hne : k ≠ m := by
        rintro rfl
        exact hm hp
      obtain ⟨n, hn⟩ := ih ⟨k, by omega, hp⟩
      exact ⟨n, hn.succ hm⟩

/-- What comes up in a run has come up at some first edge. -/
theorem exists_rise {f : ℕ → Bool} {a b : ℕ} (hab : a ≤ b) (ha : f a = false) (hb : f b = true) :
    ∃ e, a ≤ e ∧ e < b ∧ f e = false ∧ f (e + 1) = true := by
  induction hab with
  | refl => simp [ha] at hb
  | @step b hab ih =>
    cases hf : f b with
    | false => exact ⟨b, hab, b.lt_succ_self, hf, hb⟩
    | true =>
      obtain ⟨e, h1, h2, he⟩ := ih hf
      exact ⟨e, h1, Nat.lt_succ_of_lt h2, he⟩

/-! ## What was last written -/

/-- `reg` is `v` of the last cycle with `wr`, and `init` before there was one. -/
structure Written {α : Type*} (wr : ℕ → Prop) (v : ℕ → α) (init : α) (reg : ℕ → α) : Prop where
  none : ∀ m, (∀ k < m, ¬ wr k) → reg m = init
  last : ∀ n m, Last wr n m → reg m = v n

/-- A register that takes `v` where it is written and otherwise stays. -/
theorem Written.of_edge {α : Type*} {wr : ℕ → Prop} [DecidablePred wr] {v reg : ℕ → α} {init : α} (zero : reg 0 = init)
    (edge : ∀ n, reg (n + 1) = if wr n then v n else reg n) : Written wr v init reg where
  none m h := by
    induction m with
    | zero => exact zero
    | succ m ih => rw [edge, if_neg (h m m.lt_succ_self), ih fun k hk => h k (Nat.lt_succ_of_lt hk)]
  last n m h := by
    induction m, h using Last.induct with
    | start h => rw [edge, if_pos h]
    | next k _ hk ih => rw [edge, if_neg hk, ih]

/-! ## Enabled edges -/

section Enabled

variable {en : ℕ → Bool} {a b : ℕ}

/-- The number of the edges `a, .., b - 1` that find the enable at 1. -/
def enabled (en : ℕ → Bool) (a b : ℕ) : ℕ := ((Finset.Ico a b).filter fun k => en k = true).card

@[simp] theorem enabled_self : enabled en a a = 0 := by simp [enabled]

theorem enabled_succ (h : a ≤ b) : enabled en a (b + 1) = enabled en a b + (en b).toNat := by
  rw [enabled, ← Nat.succ_eq_add_one, Nat.Ico_succ_right_eq_insert_Ico h, Finset.filter_insert]
  cases hb : en b with
  | false => simp [enabled]
  | true => simp [enabled]

theorem enabled_mono {c : ℕ} (h : b ≤ c) : enabled en a b ≤ enabled en a c :=
  Finset.card_le_card (Finset.filter_subset_filter _ (Finset.Ico_subset_Ico_right h))

theorem enabled_le : enabled en a b ≤ b - a := by
  rw [← Nat.card_Ico]
  exact Finset.card_filter_le _ _

theorem enabled_of_forall (h : ∀ k, a ≤ k → k < b → en k = true) : enabled en a b = b - a := by
  rw [← Nat.card_Ico, enabled, Finset.filter_true_of_mem]
  intro k hk
  obtain ⟨h1, h2⟩ := Finset.mem_Ico.1 hk
  exact h k h1 h2

end Enabled

/-! ## The counter -/

/-- `cnt` is loaded with `top` at each `load` and otherwise goes down by one where `en` is 1. -/
structure Counts (en : ℕ → Bool) (load : ℕ → Prop) (top cnt : ℕ → ℕ) : Prop where
  loads : ∀ n, load n → cnt (n + 1) = top n
  runs : ∀ n, ¬ load n → cnt (n + 1) = cnt n - (en n).toNat

namespace Counts

variable {en : ℕ → Bool} {load : ℕ → Prop} {top cnt : ℕ → ℕ} {n m : ℕ} (h : Counts en load top cnt)
include h

theorem value (hl : Last load n m) : cnt m = top n - enabled en (n + 1) m := by
  induction m, hl using Last.induct with
  | start hl => rw [h.loads n hl, enabled_self, Nat.sub_zero]
  | next k hk hno ih => rw [h.runs k hno, ih, enabled_succ (a := n + 1) hk.before, Nat.sub_sub]

/-- On its way down the counter passes each value, at an edge that takes it further. -/
theorem passes (hl : Last load n m) {v : ℕ} (hv : v ≤ top n) (hlt : top n - v < enabled en (n + 1) m) :
    ∃ k, n < k ∧ k < m ∧ en k = true ∧ cnt k = v := by
  revert hlt
  induction m, hl using Last.induct with
  | start hl =>
    intro hlt
    simp at hlt
  | next k hk hno ih =>
    intro hlt
    by_cases hin : top n - v < enabled en (n + 1) k
    · obtain ⟨j, h1, h2, hj⟩ := ih hin
      exact ⟨j, h1, by omega, hj⟩
    · rw [enabled_succ (a := n + 1) hk.before] at hlt
      have hval := h.value hk
      cases hen : en k with
      | false =>
        rw [hen, Bool.toNat_false] at hlt
        omega
      | true =>
        rw [hen, Bool.toNat_true] at hlt
        exact ⟨k, hk.before, k.lt_succ_self, hen, by omega⟩

/-- A counter that no enabled edge finds at 0 has not used up what was loaded. -/
theorem enabled_le_top (hl : Last load n m) (hpos : ∀ k, n < k → k < m → en k = true → cnt k ≠ 0) :
    enabled en (n + 1) m ≤ top n := by
  by_contra hlt
  obtain ⟨k, h1, h2, hen, hk⟩ := h.passes hl (Nat.zero_le _) (by omega)
  exact hpos k h1 h2 hen hk

/-- A flag that a load takes down and an enabled edge at 0 sets is up once there were more
enabled edges than what was loaded. -/
theorem spent (flag : ℕ → Bool) (down : ∀ n, load n → flag (n + 1) = false)
    (sets : ∀ n, ¬ load n → (flag (n + 1) = true ↔ (en n = true ∧ cnt n = 0) ∨ flag n = true)) (hl : Last load n m) :
    flag m = true ↔ top n < enabled en (n + 1) m := by
  induction m, hl using Last.induct with
  | start hl => simp [down n hl]
  | next k hk hno ih =>
    rw [sets k hno, ih, h.value hk, enabled_succ (a := n + 1) hk.before]
    cases en k with
    | false => simp
    | true =>
      simp only [Bool.toNat_true, true_and]
      omega

end Counts

/-- Where the enable comes up at a load only, and is 0 at first, there is a load before it is 1. -/
theorem exists_load (en : ℕ → Bool) {load : ℕ → Prop} (zero : en 0 = false)
    (rise : ∀ n, en n = false → en (n + 1) = true → load n) {m : ℕ} (hm : en m = true) : ∃ n, Last load n m := by
  obtain ⟨e, -, hlt, hlow, hhigh⟩ := exists_rise (Nat.zero_le m) zero hm
  exact exists_last ⟨e, hlt, rise e hlow hhigh⟩

end Countdown
