import RiscvSoc.Aes.ChainRun
/-!
# The three state machines of the AES engine go together

`aes_chain` starts `aes_core`, and that `aes_key_expand`, with pulses of one cycle and no
handshake. In each cycle the engine is at rest or a fixed number of edges after a start.
-/

open Fips197 Sync

namespace RiscvSoc.Aes

theorem Stage.keDone_eq {j : Job} {k : ℕ} {s : AesCore} (h : Stage j k s) : s.uKeyExpand.done = decide (k = 10) := by
  cases h with
  | expanding hn h => simp [h.keDone]; omega
  | expanded h => simp [h.keDone]
  | inRound hn h => simp [h.keDone]; omega
  | finished h => simp [h.keDone]

/-- Only the rounds are in these states. -/
theorem Stage.inRound_of {j : Job} {k : ℕ} {s : AesCore} (h : Stage j k s) (hs : s.state = .round ∨ s.state = .final) :
    ∃ n ≤ 9, k = 11 + n ∧ InRound j n s := by
  cases h with
  | expanding hn h => simp [h.state] at hs
  | expanded h => simp [h.state] at hs
  | @inRound n _ hn h => exact ⟨n, hn, rfl, h⟩
  | finished h => simp [h.state] at hs

theorem AesCore.synced_keyexp {s : AesCore} (h : s.Synced) :
    s.state = .keyexp ↔ s.uKeyExpand.state = .expand ∨ s.uKeyExpand.done = true := by
  constructor
  · intro hs
    have hdone : s.uKeyExpand.done = true ↔ s.uKeyExpand.state = .idle := by simpa [AesCore.Synced, hs] using h
    cases hk : s.uKeyExpand.state with
    | idle => exact .inr (hdone.2 hk)
    | expand => exact .inl rfl
  · intro hk
    by_contra hs
    obtain ⟨hidle, hdone⟩ : s.uKeyExpand.state = .idle ∧ s.uKeyExpand.done = false := by
      simpa [AesCore.Synced, hs] using h
    simp [hidle, hdone] at hk

section Runs

variable (r : Run AesChain.step)

/-- The job that the chain starts in cycle `t`. -/
def jobAt (t : ℕ) : Job := ((r.st t).coreIn (r.inp t)).job

/-- The start pulses of the chain and of the core. -/
def CoreStarts (n : ℕ) : Prop := (r.st n).coreStart (r.inp n) = true
def KeStarts (n : ℕ) : Prop := (r.st n).uCore.keStart ((r.st n).coreIn (r.inp n)) = true

variable {r} {t n : ℕ}

theorem CoreStarts.idle (h : CoreStarts r n) : (r.st n).state = .idle ∧ (r.st n).uCore.state = .idle := by
  have hs : (r.st n).state = .idle := by
    simp only [CoreStarts, AesChain.coreStart, Bool.and_eq_true, decide_eq_true_eq] at h
    exact h.1
  exact ⟨hs, ((AesChain.synced r n).idle_iff.1 hs).1⟩

/-- The core passes a start on in the cycle in which it takes it. -/
theorem keStarts_iff : KeStarts r n ↔ CoreStarts r n := by
  constructor
  · intro h
    simp only [KeStarts, AesCore.keStart, Bool.and_eq_true] at h
    exact h.2
  · intro h
    simp only [KeStarts, AesCore.keStart, h.idle.2, decide_true, Bool.true_and]
    exact h

theorem jobAt_roundKey (r : Run AesChain.step) (t k : ℕ) :
    (jobAt r t).roundKey k = roundKey (.ofBits (r.inp t).keyIn) k := rfl

theorem CoreStarts.keIdle (h : CoreStarts r n) : (r.st n).uCore.uKeyExpand.state = .idle :=
  (AesCore.synced_idle (AesChain.synced r n).core h.idle.2).1

theorem CoreStarts.expanding (h : CoreStarts r t) : Expanding (jobAt r t) 0 (r.st (t + 1)).uCore :=
  expanding_start _ h.idle.2 h.keIdle h

theorem stage_at (h : CoreStarts r t) {k : ℕ} (hk : k ≤ 21) : Stage (jobAt r t) k (r.st (t + 1 + k)).uCore := by
  apply r.carry (P := fun k s => Stage (jobAt r t) k s.uCore)
  · exact .expanding (by omega) h.expanding
  · intro m hm hst
    exact stage_step _ (by omega) hst

/-- A block that is taken keeps the chain from the next until its answer is out. -/
theorem coreStarts_apart (h : CoreStarts r t) {m : ℕ} (hm : t < m) (hm' : m < t + 23) : ¬ CoreStarts r m := by
  intro hs
  obtain ⟨k, rfl⟩ := Nat.exists_eq_add_of_le (show t + 1 ≤ m by omega)
  have hcore := (working_run r h (show k ≤ 21 by omega)).state
  rw [hs.idle.1] at hcore
  cases hcore

/-- The core is at rest, or some edges after a start. -/
theorem rest_or_stage (r : Run AesChain.step) (n : ℕ) :
    ((r.st n).uCore.state = .idle ∧ (r.st n).uCore.done = false) ∨
      ∃ t k, CoreStarts r t ∧ k ≤ 21 ∧ n = t + 1 + k := by
  induction n with
  | zero => exact .inl ⟨rfl, rfl⟩
  | succ n ih =>
    by_cases hst : CoreStarts r n
    · exact .inr ⟨n, 0, hst, by omega, rfl⟩
    have hquiet (hs : (r.st n).uCore.state = .idle) :
        (r.st (n + 1)).uCore.state = .idle ∧ (r.st (n + 1)).uCore.done = false := by
      obtain ⟨hd, hi⟩ := (r.st n).uCore.step_idle ((r.st n).coreIn (r.inp n)) hs
      exact ⟨hi.2 (by simpa [CoreStarts, AesChain.coreIn] using hst), hd⟩
    rcases ih with ⟨hs, -⟩ | ⟨t, k, ht, hk, rfl⟩
    · exact .inl (hquiet hs)
    · rcases Nat.lt_or_eq_of_le hk with hlt | rfl
      · exact .inr ⟨t, k + 1, ht, hlt, rfl⟩
      · exact .inl (hquiet ((stage_at ht le_rfl).finished_of rfl).state)

/-! ## The completions -/

theorem core_done_iff : (r.st n).uCore.done = true ↔ ∃ t, n = t + 22 ∧ CoreStarts r t := by
  constructor
  · intro hd
    rcases rest_or_stage r n with ⟨-, hno⟩ | ⟨t, k, ht, hk, rfl⟩
    · simp [hno] at hd
    · have hk21 : k = 21 := by simpa [(stage_at ht hk).done_eq] using hd
      exact ⟨t, by omega, ht⟩
  · rintro ⟨t, rfl, ht⟩
    exact ((stage_at ht le_rfl).finished_of rfl).done

theorem ke_done_iff : (r.st n).uCore.uKeyExpand.done = true ↔ ∃ t, n = t + 11 ∧ KeStarts r t := by
  constructor
  · intro hd
    rcases rest_or_stage r n with ⟨hs, -⟩ | ⟨t, k, ht, hk, rfl⟩
    · simp [(AesCore.synced_idle (AesChain.synced r n).core hs).2] at hd
    · have hk10 : k = 10 := by simpa [(stage_at ht hk).keDone_eq] using hd
      exact ⟨t, by omega, keStarts_iff.2 ht⟩
  · rintro ⟨t, rfl, ht⟩
    have h := (stage_at (keStarts_iff.1 ht) (show 10 ≤ 21 by omega)).keDone_eq
    simpa using h

theorem chain_done_iff : (r.st n).doneReg = true ↔ ∃ t, n = t + 23 ∧ CoreStarts r t := by
  cases n with
  | zero =>
    have hreset : (r.st 0).doneReg = false := rfl
    simp [hreset]
  | succ n =>
    rw [r.st_succ, AesChain.doneReg_step, core_done_iff]
    constructor
    · rintro ⟨-, t, rfl, ht⟩
      exact ⟨t, rfl, ht⟩
    · rintro ⟨t, hn, ht⟩
      obtain rfl : n = t + 22 := by omega
      exact ⟨(working_run r ht le_rfl).state, t, rfl, ht⟩

theorem core_oneDone (r : Run AesChain.step) : OneDone (CoreStarts r) fun n => (r.st n).uCore.done = true :=
  .of_delay (by omega) (fun _ => core_done_iff) fun _ ht _ h1 h2 => coreStarts_apart ht h1 (by omega)

theorem ke_oneDone (r : Run AesChain.step) : OneDone (KeStarts r) fun n => (r.st n).uCore.uKeyExpand.done = true := by
  refine .of_delay (by omega) (fun _ => ke_done_iff) fun _ ht _ h1 h2 => ?_
  rw [keStarts_iff] at ht ⊢
  exact coreStarts_apart ht h1 (by omega)

theorem chain_oneDone (r : Run AesChain.step) : OneDone (CoreStarts r) fun n => (r.st n).doneReg = true :=
  .of_delay (by omega) (fun _ => chain_done_iff) fun _ ht _ h1 h2 => coreStarts_apart ht h1 h2

/-! ## The joint invariant -/

/-- What holds of the three machines in a run. -/
structure Lockstep (r : Run AesChain.step) : Prop where
  idle : ∀ n, (r.st n).state = .idle → (r.st n).uCore.state = .idle ∧ (r.st n).uCore.uKeyExpand.state = .idle
  keyexp : ∀ n, (r.st n).uCore.state = .keyexp ↔
    (r.st n).uCore.uKeyExpand.state = .expand ∨ (r.st n).uCore.uKeyExpand.done = true
  /-- A start finds the inner machine idle, and sets it to work. -/
  coreTakes : ∀ n, CoreStarts r n → (r.st n).uCore.state = .idle ∧ (r.st (n + 1)).uCore.state = .keyexp
  keTakes : ∀ n, KeStarts r n →
    (r.st n).uCore.uKeyExpand.state = .idle ∧ (r.st (n + 1)).uCore.uKeyExpand.state = .expand
  /-- The chain's own completion, and those of the two starts. -/
  chainDone : OneDone (CoreStarts r) fun n => (r.st n).doneReg = true
  coreDone : OneDone (CoreStarts r) fun n => (r.st n).uCore.done = true
  keDone : OneDone (KeStarts r) fun n => (r.st n).uCore.uKeyExpand.done = true
  /-- In the rounds, `k` of which are done, the keys are those of the key at the last start,
  and the one that is selected is that of the next round. -/
  rounds : ∀ n, (r.st n).uCore.state = .round ∨ (r.st n).uCore.state = .final →
    ∃ t k, n = t + 12 + k ∧ k ≤ 9 ∧ CoreStarts r t ∧ (∀ m, t < m → m < n → ¬ CoreStarts r m) ∧
      (∀ i : BitVec 4, i.toNat ≤ 10 →
        State.ofBits ((r.st n).uCore.uKeyExpand.rk i) = roundKey (.ofBits (r.inp t).keyIn) i.toNat) ∧
      (r.st n).uCore.rnum.toNat ≤ 10 ∧
      State.ofBits (r.st n).uCore.dataReg = (jobAt r t).middle k ∧
      State.ofBits (r.st n).uCore.rkSel =
        roundKey (.ofBits (r.inp t).keyIn) (if (jobAt r t).dec then 9 - k else k + 1)

theorem lockstep (r : Run AesChain.step) : Lockstep r where
  idle n hs := by
    have hsync := AesChain.synced r n
    have hcore := (hsync.idle_iff.1 hs).1
    exact ⟨hcore, (AesCore.synced_idle hsync.core hcore).1⟩
  keyexp n := AesCore.synced_keyexp (AesChain.synced r n).core
  coreTakes n h := ⟨h.idle.2, h.expanding.state⟩
  keTakes n h := ⟨(keStarts_iff.1 h).keIdle, (keStarts_iff.1 h).expanding.keState⟩
  chainDone := chain_oneDone r
  coreDone := core_oneDone r
  keDone := ke_oneDone r
  rounds n hs := by
    rcases rest_or_stage r n with ⟨hidle, -⟩ | ⟨t, k, ht, hk, rfl⟩
    · simp [hidle] at hs
    · obtain ⟨m, hm, rfl, hin⟩ := (stage_at ht hk).inRound_of hs
      have hle : (r.st (t + 1 + (11 + m))).uCore.rnum.toNat ≤ 10 := by
        rw [hin.rnum]
        split_ifs <;> omega
      refine ⟨t, m, by omega, hm, ht, fun _ h1 h2 => coreStarts_apart ht h1 (by omega), fun i hi => ?_, hle,
        hin.dataReg, ?_⟩
      · rw [hin.keys i hi, jobAt_roundKey]
      · rw [rkSel_inRound hm hin, jobAt_roundKey]

end Runs

end RiscvSoc.Aes
