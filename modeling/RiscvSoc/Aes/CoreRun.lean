import RiscvSoc.Aes.Datapath
import RiscvSoc.Lib.Sync
/-!
# `aes_core` runs AES-128 in 21 edges

`Stage j k` is the state of the core `k` edges after the edge that took job `j`:
the key expansion fills the register file, nine rounds and the final round use
it. No stage depends on the inputs the core sees after its start.
-/

open Fips197 Sync

namespace RiscvSoc.Aes

/-- What a start pulse asks for. -/
structure Job where
  key : Block
  blk : Block
  dec : Bool

namespace Job

variable (j : Job)

def roundKey (r : ℕ) : State := Fips197.roundKey (.ofBits j.key) r

/-- The state after the first key addition and `n` rounds. -/
def middle (n : ℕ) : State :=
  if j.dec then invRounds j.roundKey (addRoundKey (j.roundKey 10) (.ofBits j.blk)) n
  else rounds j.roundKey (addRoundKey (j.roundKey 0) (.ofBits j.blk)) n

/-- What FIPS-197 says the job's answer is. -/
def result : Block := if j.dec then decrypt128 j.key j.blk else encrypt128 j.key j.blk

end Job

/-! ## The stages of a job -/

/-- The register file holds the round keys `0 .. n`. -/
def KeyExpand.Holds (j : Job) (n : ℕ) (s : KeyExpand) : Prop :=
  ∀ i : BitVec 4, i.toNat ≤ n → State.ofBits (s.rk i) = j.roundKey i.toNat

/-- Round keys `0 .. n` are there, `n + 1` is next. -/
structure Expanding (j : Job) (n : ℕ) (s : AesCore) : Prop where
  state : s.state = .keyexp
  encdecReg : s.encdecReg = j.dec
  dataReg : s.dataReg = j.blk
  done : s.done = false
  keState : s.uKeyExpand.state = .expand
  keDone : s.uKeyExpand.done = false
  roundIdx : s.uKeyExpand.roundIdx.toNat = n + 1
  keys : s.uKeyExpand.Holds j n

/-- The pulse of the key expansion's `done`. -/
structure Expanded (j : Job) (s : AesCore) : Prop where
  state : s.state = .keyexp
  encdecReg : s.encdecReg = j.dec
  dataReg : s.dataReg = j.blk
  done : s.done = false
  keState : s.uKeyExpand.state = .idle
  keDone : s.uKeyExpand.done = true
  keys : s.uKeyExpand.Holds j 10

/-- `n` of the ten rounds are done; the tenth is the final one. -/
structure InRound (j : Job) (n : ℕ) (s : AesCore) : Prop where
  state : s.state = if n < 9 then .round else .final
  encdecReg : s.encdecReg = j.dec
  rnum : s.rnum.toNat = if j.dec then 9 - n else n + 1
  dataReg : State.ofBits s.dataReg = j.middle n
  done : s.done = false
  keState : s.uKeyExpand.state = .idle
  keDone : s.uKeyExpand.done = false
  keys : s.uKeyExpand.Holds j 10

structure Finished (j : Job) (s : AesCore) : Prop where
  state : s.state = .idle
  done : s.done = true
  dataOut : s.dataOut = j.result
  keState : s.uKeyExpand.state = .idle
  keDone : s.uKeyExpand.done = false

/-- `k` edges after the start edge. -/
inductive Stage (j : Job) : ℕ → AesCore → Prop
  | expanding {n s} (hn : n ≤ 9) (h : Expanding j n s) : Stage j n s
  | expanded {s} (h : Expanded j s) : Stage j 10 s
  | inRound {n s} (hn : n ≤ 9) (h : InRound j n s) : Stage j (11 + n) s
  | finished {s} (h : Finished j s) : Stage j 21 s

/-! ## One edge -/

section Edge

variable {j : Job} {n : ℕ} {s : AesCore} (i : CoreIn)

theorem expanding_start (hs : s.state = .idle) (hk : s.uKeyExpand.state = .idle) (hi : i.start = true) :
    Expanding ⟨i.keyIn, i.dataIn, i.encdec⟩ 0 (s.step true i) := by
  constructor <;> simp [AesCore.step, AesCore.fsm, AesCore.keStart, KeyExpand.step, hs, hk, hi]
  intro k hk0
  obtain rfl : k = 0 := BitVec.eq_of_toNat_eq (by simpa using hk0)
  simp [Job.roundKey, Fips197.roundKey, expandedKey, window]

/-- The word written at `roundIdx` is the next round key. -/
theorem holds_update (hn : n ≤ 9) {ke : KeyExpand} (hidx : ke.roundIdx.toNat = n + 1) (hk : ke.Holds j n) :
    ∀ k : BitVec 4, k.toNat ≤ n + 1 →
      State.ofBits (Function.update ke.rk ke.roundIdx (nextRoundKey ke.roundIdx (ke.rk (ke.roundIdx - 1))) k) =
        j.roundKey k.toNat := by
  intro k hk1
  by_cases he : k = ke.roundIdx
  · subst he
    have hp : (ke.roundIdx - 1).toNat = ke.roundIdx.toNat - 1 := by
      rw [BitVec.toNat_sub_of_le (by simpa [BitVec.le_def] using by omega)]; rfl
    rw [Function.update_self]
    refine ofBits_nextRoundKey (by omega) (by omega) ?_
    rw [hk _ (by omega), hp]
    rfl
  · rw [Function.update_of_ne he]
    have : k.toNat ≠ ke.roundIdx.toNat := fun h => he (BitVec.eq_of_toNat_eq h)
    exact hk k (by omega)

theorem expanding_step (hn : n < 9) (h : Expanding j n s) : Expanding j (n + 1) (s.step true i) := by
  have hne : s.uKeyExpand.roundIdx ≠ 10#4 := by
    intro he
    have := h.roundIdx
    simp [he] at this
    omega
  have hidx : (s.uKeyExpand.roundIdx + 1#4).toNat = n + 1 + 1 := by
    rw [BitVec.toNat_add, h.roundIdx]
    simp; omega
  constructor <;>
    simp [AesCore.step, AesCore.fsm, KeyExpand.step, h.state, h.encdecReg, h.dataReg, h.keState, h.keDone,
      hne, hidx]
  exact holds_update (by omega) h.roundIdx h.keys

theorem expanded_step (h : Expanding j 9 s) : Expanded j (s.step true i) := by
  have he : s.uKeyExpand.roundIdx = 10#4 := BitVec.eq_of_toNat_eq h.roundIdx
  constructor <;>
    simp [AesCore.step, AesCore.fsm, KeyExpand.step, h.state, h.encdecReg, h.dataReg, h.keState, h.keDone, he]
  have := holds_update (by omega) h.roundIdx h.keys
  rwa [he] at this

theorem inRound_start (h : Expanded j s) : InRound j 0 (s.step true i) := by
  have k0 := h.keys 0#4 (by simp)
  have k10 := h.keys 10#4 (by simp)
  constructor <;> cases hd : j.dec <;>
    simp [AesCore.step, AesCore.fsm, AesCore.keStart, KeyExpand.step, h.state, h.encdecReg, h.dataReg,
      h.keState, h.keDone, hd, Job.middle, ofBits_xor, k0, k10, rounds, invRounds]
  all_goals exact h.keys

/-- The round key the core selects. -/
theorem rkSel_inRound (hn : n ≤ 9) (h : InRound j n s) :
    State.ofBits s.rkSel = j.roundKey (if j.dec then 9 - n else n + 1) := by
  have hle : s.rnum.toNat ≤ 10 := by rw [h.rnum]; split <;> omega
  rw [AesCore.rkSel, h.keys _ hle, h.rnum]

theorem encRoundNext_inRound (hd : j.dec = false) (hn : n ≤ 9) (h : InRound j n s) :
    State.ofBits s.encRoundNext = j.middle (n + 1) := by
  have hk := rkSel_inRound hn h
  have hm := h.dataReg
  simp only [Job.middle, hd, Bool.false_eq_true, if_false] at hk hm ⊢
  rw [AesCore.encRoundNext, AesCore.subShiftEnc, ofBits_xor, ofBits_mixColumns, ofBits_shiftRows,
    ofBits_subBytes, hm, hk, rounds]

theorem decRoundNext_inRound (hd : j.dec = true) (hn : n ≤ 9) (h : InRound j n s) :
    State.ofBits s.decRoundNext = j.middle (n + 1) := by
  have hk := rkSel_inRound hn h
  have hm := h.dataReg
  simp only [Job.middle, hd, if_true] at hk hm ⊢
  rw [AesCore.decRoundNext, AesCore.subShiftDec, ofBits_invMixColumns, ofBits_xor, ofBits_invSubBytes,
    ofBits_invShiftRows, hm, hk, invRounds]

/-- What the edge of a middle round changes: the last one moves on to the final round. -/
theorem round_edge (hs : s.state = .round) (hk : s.uKeyExpand.state = .idle) :
    let last := if s.encdecReg then 1#4 else 9#4
    s.step true i =
      { s with
        dataReg := if s.encdecReg then s.decRoundNext else s.encRoundNext
        rnum := if s.encdecReg then s.rnum - 1#4 else s.rnum + 1#4
        state := if s.rnum = last then .final else .round
        done := false
        uKeyExpand := { s.uKeyExpand with done := false } } := by
  cases hd : s.encdecReg <;> by_cases hr : s.rnum = 9#4 <;> by_cases hr' : s.rnum = 1#4 <;>
    simp_all [AesCore.step, AesCore.fsm, AesCore.keStart, KeyExpand.step]

theorem inRound_step (hn : n < 9) (h : InRound j n s) : InRound j (n + 1) (s.step true i) := by
  rw [round_edge i (by simpa [hn] using h.state) h.keState]
  have hr := h.rnum
  have hlast : (s.rnum = if j.dec then 1#4 else 9#4) ↔ n = 8 := by
    rw [← BitVec.toNat_inj, hr]
    cases j.dec with
    | false => simp
    | true => simp; omega
  exact {
    state := by
      by_cases h8 : n = 8
      · simp [h.encdecReg, hlast, h8]
      · simp [h.encdecReg, hlast, h8]; omega
    encdecReg := h.encdecReg
    rnum := by
      cases hd : j.dec <;> simp [h.encdecReg, BitVec.toNat_add, BitVec.toNat_sub, hr, hd] <;> omega
    dataReg := by
      cases hd : j.dec with
      | false => simpa [h.encdecReg, hd] using encRoundNext_inRound hd (by omega) h
      | true => simpa [h.encdecReg, hd] using decRoundNext_inRound hd (by omega) h
    done := rfl, keState := h.keState, keDone := rfl, keys := h.keys }

/-- The final round leaves out the column mix. -/
theorem finished_step (h : InRound j 9 s) : Finished j (s.step true i) := by
  have hk := rkSel_inRound le_rfl h
  have hm := h.dataReg
  have hout : (if s.encdecReg then s.decFinalNext else s.encFinalNext) = j.result := by
    rw [← toBits_ofBits (ite _ _ _), h.encdecReg, Job.result]
    cases hd : j.dec with
    | false =>
      simp only [Job.middle, hd, Bool.false_eq_true, if_false] at hk hm ⊢
      rw [AesCore.encFinalNext, AesCore.subShiftEnc, ofBits_xor, ofBits_shiftRows, ofBits_subBytes, hm, hk]
      rfl
    | true =>
      simp only [Job.middle, hd, if_true] at hk hm ⊢
      rw [AesCore.decFinalNext, AesCore.subShiftDec, ofBits_xor, ofBits_invSubBytes, ofBits_invShiftRows, hm, hk]
      rfl
  have hs : s.state = .final := by simpa using h.state
  constructor <;> simp [AesCore.step, AesCore.fsm, AesCore.keStart, KeyExpand.step, hs, h.keState, hout]

theorem stage_step {k : ℕ} (hk : k < 21) (h : Stage j k s) : Stage j (k + 1) (s.step true i) := by
  cases h with
  | @expanding n _ hn h =>
    rcases Nat.lt_or_eq_of_le hn with hlt | rfl
    · exact .expanding (by omega) (expanding_step i hlt h)
    · exact .expanded (expanded_step i h)
  | expanded h => exact .inRound (n := 0) (by omega) (inRound_start i h)
  | @inRound n _ hn h =>
    rcases Nat.lt_or_eq_of_le hn with hlt | rfl
    · exact .inRound (by omega) (inRound_step i hlt h)
    · exact .finished (finished_step i h)
  | finished h => omega

end Edge

/-! ## Runs -/

/-- The job a start pulse with these inputs asks for. -/
def CoreIn.job (i : CoreIn) : Job := ⟨i.keyIn, i.dataIn, i.encdec⟩

/-- The key expansion works exactly while the core waits for it. -/
def AesCore.Synced (s : AesCore) : Prop :=
  if s.state = .keyexp then s.uKeyExpand.done = true ↔ s.uKeyExpand.state = .idle
  else s.uKeyExpand.state = .idle ∧ s.uKeyExpand.done = false

theorem AesCore.synced_idle {s : AesCore} (h : s.Synced) (hs : s.state = .idle) :
    s.uKeyExpand.state = .idle ∧ s.uKeyExpand.done = false := by
  simpa [AesCore.Synced, hs] using h

theorem AesCore.synced_reset (s : AesCore) (i : CoreIn) : (s.step false i).Synced := by
  simp [AesCore.Synced, AesCore.step, KeyExpand.step]

theorem AesCore.synced_step (s : AesCore) (i : CoreIn) (h : s.Synced) : (s.step true i).Synced := by
  cases hs : s.state with
  | idle =>
    obtain ⟨hk, -⟩ : s.uKeyExpand.state = .idle ∧ _ := by simpa [AesCore.Synced, hs] using h
    cases hi : i.start <;> simp [AesCore.Synced, AesCore.step, AesCore.fsm, AesCore.keStart, KeyExpand.step, hs, hk, hi]
  | keyexp =>
    have h : s.uKeyExpand.done = true ↔ s.uKeyExpand.state = .idle := by simpa [AesCore.Synced, hs] using h
    cases hk : s.uKeyExpand.state with
    | idle =>
      cases hd : s.encdecReg <;>
        simp [AesCore.Synced, AesCore.step, AesCore.fsm, AesCore.keStart, KeyExpand.step, hs, hk, h.2 hk, hd]
    | expand =>
      have hd : s.uKeyExpand.done = false := by simpa [hk] using h
      by_cases hr : s.uKeyExpand.roundIdx = 10#4 <;>
        simp [AesCore.Synced, AesCore.step, AesCore.fsm, KeyExpand.step, hs, hk, hd, hr]
  | round =>
    obtain ⟨hk, -⟩ : s.uKeyExpand.state = .idle ∧ _ := by simpa [AesCore.Synced, hs] using h
    rw [round_edge i hs hk]
    by_cases hl : s.rnum = if s.encdecReg then 1#4 else 9#4 <;> simp [AesCore.Synced, hl, hk]
  | final =>
    obtain ⟨hk, -⟩ : s.uKeyExpand.state = .idle ∧ _ := by simpa [AesCore.Synced, hs] using h
    simp [AesCore.Synced, AesCore.step, AesCore.fsm, AesCore.keStart, KeyExpand.step, hs, hk]

section Runs

variable (r : Run AesCore.step) {t : ℕ}

theorem synced (n : ℕ) : (r.st n).Synced := r.invariant AesCore.synced_reset AesCore.synced_step n

/-- The stages follow the start edge, whatever the inputs are after it. -/
theorem stage_run (h : (r.st t).keStart (r.inp t) = true) {k : ℕ} (hk : k ≤ 21) :
    Stage (r.inp t).job k (r.st (t + 1 + k)) := by
  obtain ⟨hs, hi⟩ : (r.st t).state = .idle ∧ (r.inp t).start = true := by simpa [AesCore.keStart] using h
  have hke := (AesCore.synced_idle (synced r t) hs).1
  apply r.carry
  · exact .expanding (by omega) (expanding_start _ hs hke hi)
  · intro m hm hst
    exact stage_step _ (by omega) hst

theorem Stage.done_eq {j : Job} {k : ℕ} {s : AesCore} (h : Stage j k s) : s.done = decide (k = 21) := by
  cases h with
  | expanding hn h => simp [h.done]; omega
  | expanded h => simp [h.done]
  | inRound hn h => simp [h.done]; omega
  | finished h => simp [h.done]

theorem Stage.state_ne {j : Job} {k : ℕ} {s : AesCore} (h : Stage j k s) (hk : k < 21) : s.state ≠ .idle := by
  cases h with
  | expanding hn h => simp [h.state]
  | expanded h => simp [h.state]
  | @inRound n _ hn h => rw [h.state]; split <;> simp
  | finished h => omega

theorem Stage.finished_of {j : Job} {k : ℕ} {s : AesCore} (h : Stage j k s) (hk : k = 21) : Finished j s := by
  cases h with
  | finished h => exact h
  | expanded h | expanding hn h | inRound hn h => omega

/-- After its `done` pulse the core stays quiet until it takes another start. -/
theorem quiet_run (h : (r.st t).state = .idle) {n : ℕ} (hn : t < n)
    (hno : ∀ m, t ≤ m → m < n → (r.st m).keStart (r.inp m) = false) :
    (r.st n).state = .idle ∧ (r.st n).done = false := by
  obtain ⟨k, rfl⟩ := Nat.exists_eq_add_of_lt hn
  induction k with
  | zero =>
    have := hno t le_rfl (by omega)
    simp_all [Run.st_succ, AesCore.keStart, AesCore.step, AesCore.fsm]
  | succ k ih =>
    obtain ⟨hs, -⟩ := ih (by omega) fun m h1 h2 => hno m h1 (by omega)
    have := hno (t + k + 1) (by omega) (by omega)
    rw [← Nat.add_assoc t k 1, Run.st_succ]
    simp_all [AesCore.keStart, AesCore.step, AesCore.fsm]

/-- A start pulse the core takes gives one `done`, 21 edges after its own, with
the answer of FIPS-197. The core takes no other start before. -/
theorem aesCore_computes_aes (h : (r.st t).keStart (r.inp t) = true) :
    (∀ n, t < n → (∀ m, t < m → m < n → (r.st m).keStart (r.inp m) = false) →
      ((r.st n).done = true ↔ n = t + 1 + 21)) ∧
    (∀ m, t < m → m < t + 1 + 21 → (r.st m).keStart (r.inp m) = false) ∧
    (r.st (t + 1 + 21)).dataOut =
      if (r.inp t).encdec then decrypt128 (r.inp t).keyIn (r.inp t).dataIn
      else encrypt128 (r.inp t).keyIn (r.inp t).dataIn := by
  have hfin : Finished (r.inp t).job (r.st (t + 1 + 21)) := (stage_run r h le_rfl).finished_of rfl
  refine ⟨fun n hn hno => ?_, fun m h1 h2 => ?_, hfin.dataOut⟩
  · rcases Nat.lt_or_ge (t + 1 + 21) n with hlt | hle
    · have := (quiet_run r hfin.state hlt fun m h1 h2 => hno m (by omega) h2).2
      simp [this]; omega
    · obtain ⟨k, rfl⟩ := Nat.exists_eq_add_of_le (show t + 1 ≤ n by omega)
      rw [(stage_run r h (by omega : k ≤ 21)).done_eq]
      simp
  · obtain ⟨k, rfl⟩ := Nat.exists_eq_add_of_le (show t + 1 ≤ m by omega)
    simp [AesCore.keStart, (stage_run r h (by omega : k ≤ 21)).state_ne (by omega)]

end Runs

/-- The example vector of FIPS-197, with inputs that change right after the start. -/
def fipsRun : Run AesCore.step where
  powerUp := ⟨.round, true, 3, 0, true, true, 0, ⟨.expand, 7, true, fun _ => 0⟩⟩
  resetInp := ⟨false, false, 0, 0⟩
  inp n :=
    if n = 0 then ⟨true, false, 0x000102030405060708090a0b0c0d0e0f#128, 0x00112233445566778899aabbccddeeff#128⟩
    else ⟨true, true, 0, 0⟩

set_option maxRecDepth 100000 in
theorem aesCore_computes_aes_fipsRun :
    (fipsRun.st 22).done = true ∧ (fipsRun.st 22).dataOut = 0x69c4e0d86a7b0430d8cdb78070b4c55a#128 := by
  obtain ⟨hdone, hidle, hout⟩ := aesCore_computes_aes fipsRun (t := 0) rfl
  refine ⟨(hdone 22 (by omega) fun m h1 h2 => hidle m h1 h2).2 rfl, hout.trans ?_⟩
  decide +kernel

end RiscvSoc.Aes
