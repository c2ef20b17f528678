import RiscvSoc.Slaves.UartRun
/-!
# The bytes that are sent

What a receiver makes of the line, against the writes to TXDATA that find STATUS.busy at 0.
The flag comes up two cycles after the write it answers, and a write in the cycle between
is taken and lost.
-/

namespace RiscvSoc.Uart

open Sync Pacing SerialLine

variable {c : ℕ} {r : Run (step c)} {b : BitVec 8} {n t : ℕ}

/-- The bytes of the writes to TXDATA before cycle `n` that find the transmitter idle. -/
def taken (r : Run (step c)) (n : ℕ) : List (BitVec 8) := collect (takes r) 0 n

/-- The byte launched in cycle `n`. -/
def launches (r : Run (step c)) (n : ℕ) : Option (BitVec 8) := if (r.st n).doStartTx then none else takes r n

def launched (r : Run (step c)) (n : ℕ) : List (BitVec 8) := collect (launches r) 0 n

theorem launches_eq_some : launches r n = some b ↔ Launches r n b := by
  rw [launches, takes]
  constructor
  · intro h
    split_ifs at h with hp ht
    obtain ⟨hw, hidle⟩ := takesByte_eq_true.1 ht
    exact ⟨hidle, by simpa using hp, hw, Option.some.inj h⟩
  · intro h
    rw [if_neg (by simp [h.noPulse]), if_pos (takesByte_eq_true.2 ⟨h.write, h.idle⟩), h.byte]

/-- The transmitter has nothing to send. -/
def Rests (r : Run (step c)) (n : ℕ) : Prop := (r.st n).txState = .idle ∧ (r.st n).doStartTx = false

/-- No byte is lost: whenever the transmitter rests, the line has shown the bytes taken so
far, and after every byte taken it comes to rest. -/
structure Lossless (r : Run (step c)) : Prop where
  shows : ∀ n, Rests r n → Shows c (fun n => (r.st n).tx) 0 (n + 1) (taken r n)
  rests : ∀ n b, takes r n = some b → ∃ m, n < m ∧ Rests r m

theorem launched_succ_none (h : launches r n = none) : launched r (n + 1) = launched r n :=
  collect_succ_none (by rwa [Nat.zero_add])

theorem launches_none {k : ℕ} (h : Launches r t b) (hc : 0 < c) (hc' : c ≤ 256) (hk : 0 < k) (hk' : k < 2 + 10 * c) :
    launches r (t + k) = none := by
  rw [Option.eq_none_iff_forall_ne_some]
  intro b' hb'
  have hapart := h.apart (launches_eq_some.1 hb') (by omega) hc hc'
  omega

theorem launched_frame (h : Launches r t b) (hc : 0 < c) (hc' : c ≤ 256) {k : ℕ} (hk : k < 2 + 10 * c) :
    launched r (t + (k + 1)) = launched r t ++ [b] := by
  induction k with
  | zero => exact collect_succ_some (by rw [Nat.zero_add]; exact launches_eq_some.2 h)
  | succ k ih =>
    rw [← ih (by omega)]
    exact launched_succ_none (launches_none h hc hc' (by omega) hk)

/-- Whenever the transmitter rests, the line has shown the bytes launched. -/
theorem shows_launched (hc : 0 < c) (hc' : c ≤ 256) (hn : Rests r n) :
    Shows c (fun n => (r.st n).tx) 0 (n + 1) (launched r n) := by
  induction n using Nat.strong_induction_on with
  | _ n ih =>
    cases n with
    | zero => exact .single_high st_zero_rests.2.2
    | succ n =>
      by_cases hs : (r.st n).txState = .idle
      · have hp : (r.st n).doStartTx = false := by
          cases hp : (r.st n).doStartTx with
          | false => rfl
          | true =>
            have hstart := hn.1
            rw [r.st_succ, step_txState, (txStep_pending hs hp).1] at hstart
            cases hstart
        have hnone : launches r n = none := by
          have hno : (r.st n).takesByte (r.inp n) = false := hn.2
          simp [launches, takes, hno]
        have hline := (ih n (by omega) ⟨hs, hp⟩).append (.single_high (txStep_idle (c := c) hs hp).2)
        rwa [List.append_nil, ← launched_succ_none hnone] at hline
      · obtain ⟨t, b, h, hlo, hhi⟩ := exists_launch hc hc' hs
        have hend : n + 1 = t + 2 + 10 * c := by
          refine Nat.le_antisymm hhi (Nat.le_of_not_lt fun hlt => ?_)
          obtain ⟨k, hk, j, hj, hm⟩ := exists_slot (m := n + 1 - (t + 2)) (K := 10) (d := c) (by omega)
          have hbusy := ((h.stages hc hc').1 k hk j hj).busy hk
          rw [show t + 2 + (k * c + j) = n + 1 by omega] at hbusy
          exact hbusy hn.1
        have hline := ih t (by omega) ⟨h.idle, h.noPulse⟩
        have h1 := hline.append (.single_high h.pending.2.2.2)
        have h2 := h1.append (.single_high h.begins.2.2)
        have h3 := h2.append (.single_frame (h.isFrame hc hc'))
        rw [hend, show t + 2 + 10 * c = t + (1 + 10 * c + 1) by omega, launched_frame h hc hc' (by omega),
          show t + (1 + 10 * c + 1) + 1 = t + 3 + 10 * c by omega]
        simpa using h3

/-- A byte taken leaves work to do, in this cycle or the next. -/
theorem not_rests_of_takes (h : takes r n = some b) : ¬ Rests r (n + 1) := by
  intro hrest
  rw [takes] at h
  split_ifs at h with ht
  have hp : (r.st (n + 1)).doStartTx = true := ht
  exact absurd hrest.2 (by simp [hp])

theorem not_rests_of_busy (hc : ¬ (1 ≤ c ∧ c ≤ 256)) (h : takes r n = some b) {m : ℕ} (hm : n < m) : ¬ Rests r m := by
  intro hrest
  obtain ⟨k, rfl⟩ := Nat.exists_eq_add_of_le (Nat.succ_le_of_lt hm)
  by_cases hs : (r.st (n + 1)).txState = .idle
  · cases k with
    | zero => exact not_rests_of_takes h hrest
    | succ k =>
      have hp : (r.st (n + 1)).doStartTx = true := by
        have hno := not_rests_of_takes h
        simp only [Rests, hs, true_and, Bool.not_eq_false] at hno
        exact hno
      have hstart : (r.st (n + 1 + 1)).txState ≠ .idle := by
        rw [r.st_succ, step_txState, (txStep_pending hs hp).1]
        simp
      refine busy_forever hc hstart k ?_
      rw [show n + 1 + 1 + k = n.succ + (k + 1) by omega]
      exact hrest.1
  · exact busy_forever hc hs k hrest.1

/-- Of two bytes taken in consecutive cycles the second is lost. -/
theorem not_lossless (hc : 1 ≤ c) (hc' : c ≤ 256) (h : takes r n ≠ none) (h' : takes r (n + 1) ≠ none) :
    ¬ Lossless r := by
  intro hl
  obtain ⟨b, hb⟩ := Option.ne_none_iff_exists'.1 h
  obtain ⟨b', hb'⟩ := Option.ne_none_iff_exists'.1 h'
  obtain ⟨m, hm, hrest⟩ := hl.rests (n + 1) b' hb'
  have hp : (r.st (n + 1)).doStartTx = true := by
    rw [takes] at hb
    split_ifs at hb with ht
    exact ht
  have hsame : launched r m = taken r m := (shows_launched hc hc' hrest).unique hc (hl.shows m hrest)
  have hless : (launched r m).length < (taken r m).length := by
    refine collect_length_lt (fun k hk => ?_) (a := 0) (k := n + 1) hm ?_ ?_
    · rw [launches, hk]
      exact ite_self _
    · simp [launches, hp]
    · rwa [Nat.zero_add]
  rw [hsame] at hless
  exact absurd hless (lt_irrefl _)

theorem launches_eq_takes (h : ∀ n, takes r n ≠ none → takes r (n + 1) = none) : launches r = takes r := by
  funext n
  rw [launches]
  split_ifs with hp
  · cases n with
    | zero => exact absurd hp (by simp [st_zero_rests])
    | succ n =>
      refine (h n ?_).symm
      have ht : (r.st n).takesByte (r.inp n) = true := hp
      simp [takes, ht]
  · rfl

theorem rests_of_untouched (h : ∀ n, takes r n = none) (n : ℕ) : Rests r n ∧ (r.st n).tx = true := by
  induction n with
  | zero => exact ⟨⟨st_zero_rests.1, st_zero_rests.2.1⟩, st_zero_rests.2.2⟩
  | succ n ih =>
    obtain ⟨⟨hs, hp⟩, -⟩ := ih
    obtain ⟨hs', htx⟩ := txStep_idle (c := c) hs hp
    refine ⟨⟨hs', ?_⟩, htx⟩
    have hno := h n
    rw [takes] at hno
    simpa [r.st_succ] using hno

theorem shows_untouched (h : ∀ n, takes r n = none) (n : ℕ) : Shows c (fun n => (r.st n).tx) 0 n [] := by
  induction n with
  | zero => exact .nil 0
  | succ n ih => exact ih.append (.single_high (rests_of_untouched h n).2)

/-- Every byte taken is sent if bits end and no two bytes are taken in consecutive cycles,
and otherwise only if none is taken. -/
theorem lossless_iff (r : Run (step c)) :
    Lossless r ↔ (∀ n, takes r n = none) ∨ (1 ≤ c ∧ c ≤ 256 ∧ ∀ n, takes r n ≠ none → takes r (n + 1) = none) := by
  constructor
  · intro hl
    by_cases hnone : ∀ n, takes r n = none
    · exact .inl hnone
    · obtain ⟨n, hn⟩ := not_forall.1 hnone
      obtain ⟨b, hb⟩ := Option.ne_none_iff_exists'.1 hn
      obtain ⟨m, hm, hrest⟩ := hl.rests n b hb
      obtain ⟨hc, hc'⟩ : 1 ≤ c ∧ c ≤ 256 := by
        by_contra hc
        exact not_rests_of_busy hc hb hm hrest
      refine .inr ⟨hc, hc', fun k hk => ?_⟩
      by_contra hk'
      exact not_lossless hc hc' hk hk' hl
  · rintro (hnone | ⟨hc, hc', hgap⟩)
    · refine ⟨fun n _ => ?_, fun n b hb => ?_⟩
      · have hempty : taken r n = [] := by simp [taken, collect, hnone]
        rw [hempty]
        exact shows_untouched hnone (n + 1)
      · rw [hnone n] at hb
        cases hb
    · have hsame := launches_eq_takes hgap
      refine ⟨fun n hn => ?_, fun n b hb => ?_⟩
      · have hline := shows_launched hc hc' hn
        rwa [launched, hsame] at hline
      · rw [← hsame] at hb
        have hend := ((launches_eq_some.1 hb).stages hc hc').2.at_rest
        exact ⟨n + 2 + 10 * c, by omega, hend⟩

/-- Two bytes written back to back. -/
theorem burst_loses : ¬ Lossless (burst 4 [0x41, 0x42]) :=
  not_lossless (n := 0) (by decide) (by decide) (by decide) (by decide)

end RiscvSoc.Uart
