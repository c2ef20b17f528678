import RiscvSoc.Aes.ChainRun
import RiscvSoc.Slaves.AesRegs
/-!
# Runs of `aes.v`

The chain is a run of its own inside a run of the registers. From an accepted START
to its `done` it looks at none of its inputs, so nothing that is written or read in
these cycles reaches it.
-/

open Fips197 Sync Modes

namespace RiscvSoc.Aes

/-! ## The chain at work -/

theorem KeyExpand.step_congr (s : KeyExpand) (key key' : Block) : s.step true false key = s.step true false key' := by
  cases h : s.state <;> simp [KeyExpand.step, h]

theorem AesCore.step_congr {s : AesCore} {i i' : CoreIn} (h : i.start = false) (h' : i'.start = false) :
    s.step true i = s.step true i' := by
  have hke : s.keStart i = false := by simp [AesCore.keStart, h]
  have hke' : s.keStart i' = false := by simp [AesCore.keStart, h']
  have hfsm : s.fsm i = s.fsm i' := by cases hs : s.state <;> simp [AesCore.fsm, hs, h, h']
  simp only [AesCore.step, hke, hke', hfsm, KeyExpand.step_congr _ i.keyIn i'.keyIn]

/-- At work and with no IV to load the chain looks at no input. -/
theorem AesChain.step_congr {s : AesChain} {i i' : ChainIn} (hs : s.state = .core) (h : i.loadIv = false)
    (h' : i'.loadIv = false) : s.step true i = s.step true i' := by
  have hcore : s.uCore.step true (s.coreIn i) = s.uCore.step true (s.coreIn i') :=
    AesCore.step_congr (by simp [AesChain.coreIn, AesChain.coreStart, hs])
      (by simp [AesChain.coreIn, AesChain.coreStart, hs])
  have hfsm : s.fsm i = s.fsm i' := by simp [AesChain.fsm, hs, h, h']
  simp only [AesChain.step, hcore, hfsm]

/-! ## The chain in a run of the registers -/

namespace AesRegs

/-- One clock edge. -/
def edge (resetn : Bool) (s : AesRegs) (i : LiteReq) : AesRegs := s.step i resetn

/-- The registers at the offsets `r0 .. r3`, `r0` for the most significant word. -/
def writeBlock (r0 r1 r2 r3 : BitVec 7) (b : Block) (offset : BitVec 7) (wdata : Word32) : Block :=
  if offset = r0 then Bytes.setWord b 3 wdata
  else if offset = r1 then Bytes.setWord b 2 wdata
  else if offset = r2 then Bytes.setWord b 1 wdata
  else if offset = r3 then Bytes.setWord b 0 wdata
  else b

def writeKey : Block → BitVec 7 → Word32 → Block := writeBlock regKey0 regKey1 regKey2 regKey3
def writeData : Block → BitVec 7 → Word32 → Block := writeBlock regData0 regData1 regData2 regData3
def writeIv : Block → BitVec 7 → Word32 → Block := writeBlock regIv0 regIv1 regIv2 regIv3

/-- A write reaches the key, the data and the IV and nothing else. -/
theorem writeReg_eq (t : AesRegs) (offset : BitVec 7) (wdata : Word32) :
    t.writeReg offset wdata =
      { t with
        keyReg := writeKey t.keyReg offset wdata
        dataReg := writeData t.dataReg offset wdata
        ivReg := writeIv t.ivReg offset wdata } := by
  by_cases h : offset ∈
      [regKey0, regKey1, regKey2, regKey3, regData0, regData1, regData2, regData3, regIv0, regIv1, regIv2, regIv3]
  · simp only [List.mem_cons, List.not_mem_nil, or_false] at h
    rcases h with rfl | rfl | rfl | rfl | rfl | rfl | rfl | rfl | rfl | rfl | rfl | rfl <;> rfl
  · simp only [List.mem_cons, List.not_mem_nil, or_false, not_or] at h
    obtain ⟨k0, k1, k2, k3, d0, d1, d2, d3, v0, v1, v2, v3⟩ := h
    simp only [writeReg, writeKey, writeData, writeIv, writeBlock, k0, k1, k2, k3, d0, d1, d2, d3, v0, v1, v2, v3,
      if_false]

/-- `offset` of the write channel. -/
def awOffset (i : LiteReq) : BitVec 7 := i.awaddr.extractLsb' 0 7

/-- All that an edge without reset does. -/
theorem edge_eq (s : AesRegs) (i : LiteReq) :
    let iv := if s.uChain.doneReg then s.uChain.ivReg else s.ivReg
    edge true s i =
      { keyReg := if i.doWrite then writeKey s.keyReg (awOffset i) i.wdata else s.keyReg
        dataReg := if i.doWrite then writeData s.dataReg (awOffset i) i.wdata else s.dataReg
        ivReg := if i.doWrite then writeIv iv (awOffset i) i.wdata else iv
        encdecReg := if s.doStart i then i.wdata.getLsbD 1 else s.encdecReg
        modeReg := if s.doStart i then i.wdata.extractLsb' 2 2 else s.modeReg
        statusDone := if i.writes regStatus && i.wdata.getLsbD 1 then false else s.uChain.doneReg || s.statusDone
        irqPulse := s.uChain.doneReg
        port := s.port.answer i axiRespOkay (s.readReg (i.araddr.extractLsb' 0 7))
        uChain := s.uChain.step true (s.chainIn i) } := by
  intro iv
  cases hd : s.uChain.doneReg <;> cases hw : i.doWrite <;> simp [edge, step, writeReg_eq, awOffset, iv, hd, hw]

theorem edge_uChain (resetn : Bool) (s : AesRegs) (i : LiteReq) :
    (edge resetn s i).uChain = s.uChain.step resetn (s.chainIn i) := by
  cases resetn with
  | false => rfl
  | true => rw [edge_eq]

variable {s : AesRegs} {i : LiteReq}

/-- RESULT0-3. -/
def result (s : AesRegs) : Block :=
  s.readReg regResult0 ++ s.readReg regResult1 ++ s.readReg regResult2 ++ s.readReg regResult3

theorem result_eq (s : AesRegs) : s.result = s.uChain.dataOutReg := Concat.append4_extract (w := 32) s.uChain.dataOutReg

theorem coreStart_eq : s.uChain.coreStart (s.chainIn i) = s.doStart i := by
  cases hs : s.uChain.state <;> simp [AesChain.coreStart, chainIn, doStart, AesChain.busy, hs]

theorem idle_of_doStart (h : s.doStart i = true) : s.uChain.state = .idle := by
  simp only [doStart, AesChain.busy, Bool.and_eq_true] at h
  simpa using h.2

theorem idle_of_doLoadIv (h : s.doLoadIv i = true) : s.uChain.state = .idle := by
  simp only [doLoadIv, AesChain.busy, Bool.and_eq_true] at h
  simpa using h.2

theorem doStart_of_core (h : s.uChain.state = .core) : s.doStart i = false := by
  simp [doStart, AesChain.busy, h]

theorem doLoadIv_of_core (h : s.uChain.state = .core) : s.doLoadIv i = false := by
  simp [doLoadIv, AesChain.busy, h]

end AesRegs

section Runs

variable (r : Run AesRegs.edge)

/-- The run of the chain. -/
def chainRun : Run AesChain.step where
  powerUp := r.powerUp.uChain
  resetInp := r.powerUp.chainIn r.resetInp
  inp n := (r.st n).chainIn (r.inp n)

@[simp] theorem chainRun_st (n : ℕ) : (chainRun r).st n = (r.st n).uChain := by
  induction n with
  | zero => rw [Run.st_zero, Run.st_zero, AesRegs.edge_uChain]; rfl
  | succ n ih => rw [Run.st_succ, ih, Run.st_succ, AesRegs.edge_uChain]; rfl

/-- A START is accepted in cycle `t`. -/
def StartsAt (t : ℕ) : Prop := (r.st t).doStart (r.inp t) = true

variable {r} {t : ℕ}

theorem StartsAt.coreStart (h : StartsAt r t) : ((chainRun r).st t).coreStart ((chainRun r).inp t) = true := by
  rw [chainRun_st]
  exact AesRegs.coreStart_eq.trans h

theorem StartsAt.working (h : StartsAt r t) {k : ℕ} (hk : k ≤ 21) :
    Working ((r.st t).chainIn (r.inp t)) (r.st t).uChain.ivReg k (r.st (t + 1 + k)).uChain := by
  have hw := working_run (chainRun r) h.coreStart hk
  rwa [chainRun_st, chainRun_st] at hw

theorem StartsAt.busy (h : StartsAt r t) {k : ℕ} (hk : k ≤ 21) : (r.st (t + 1 + k)).uChain.state = .core :=
  (h.working hk).state

theorem StartsAt.doneReg (h : StartsAt r t) {k : ℕ} (hk : k ≤ 22) :
    (r.st (t + 1 + k)).uChain.doneReg = decide (k = 22) := by
  have hd := done_run (chainRun r) h.coreStart hk
  rwa [chainRun_st] at hd

theorem StartsAt.idle (h : StartsAt r t) : (r.st (t + 23)).uChain.state = .idle := by
  have hs := AesChain.fsm_state (r.st (t + 1 + 21)).uChain ((r.st (t + 1 + 21)).chainIn (r.inp (t + 1 + 21)))
  rw [show t + 23 = t + 1 + 21 + 1 by omega, Run.st_succ, AesRegs.edge_uChain]
  exact hs.2 (.inr ⟨h.busy le_rfl, by simp [(h.working le_rfl).core_done]⟩)

/-- The chaining value that the block of the START in cycle `t` finds at its end. -/
theorem StartsAt.ivReg (h : StartsAt r t) {k : ℕ} (hk : k ≤ 21) :
    (r.st (t + 1 + k)).uChain.ivReg =
      if (r.st t).doLoadIv (r.inp t) then (r.st t).ivReg else (r.st t).uChain.ivReg := by
  induction k with
  | zero =>
    rw [Nat.add_zero, Run.st_succ, AesRegs.edge_uChain]
    exact ivReg_step (.inl (AesRegs.idle_of_doStart h))
  | succ k ih =>
    have hs := h.busy (k := k) (by omega)
    rw [← ih (by omega), ← Nat.add_assoc, Run.st_succ, AesRegs.edge_uChain,
      ivReg_step (.inr (by simp [(h.working (k := k) (by omega)).core_done]; omega))]
    simp [AesRegs.chainIn, AesRegs.doLoadIv_of_core hs]

/-- Every `done` comes from a START, 23 cycles earlier. -/
theorem working_origin {n : ℕ} (h : (r.st n).uChain.state = .core) : ∃ t k, k ≤ 21 ∧ n = t + 1 + k ∧ StartsAt r t := by
  induction n with
  | zero =>
    rw [Run.st_zero, AesRegs.edge_uChain] at h
    cases h
  | succ n ih =>
    cases hs : (r.st n).uChain.state with
    | idle =>
      cases hst : (r.st n).doStart (r.inp n) with
      | true => exact ⟨n, 0, by omega, rfl, hst⟩
      | false =>
        have hidle := (AesChain.fsm_state (r.st n).uChain ((r.st n).chainIn (r.inp n))).2 (.inl ⟨hs, ?_⟩)
        · rw [Run.st_succ, AesRegs.edge_uChain] at h
          exact absurd (h.symm.trans hidle) (by simp)
        · simpa [AesChain.coreStart, hs] using AesRegs.coreStart_eq.trans hst
    | core =>
      obtain ⟨t, k, hk, rfl, hst⟩ := ih hs
      rcases Nat.lt_or_eq_of_le hk with hlt | rfl
      · exact ⟨t, k + 1, hlt, rfl, hst⟩
      · rw [show t + 1 + 21 + 1 = t + 23 by omega, hst.idle] at h
        cases h

theorem doneReg_iff {n : ℕ} : (r.st n).uChain.doneReg = true ↔ ∃ t, n = t + 23 ∧ StartsAt r t := by
  constructor
  · intro h
    cases n with
    | zero =>
      rw [Run.st_zero, AesRegs.edge_uChain] at h
      cases h
    | succ n =>
      rw [Run.st_succ, AesRegs.edge_uChain, AesChain.doneReg_step] at h
      obtain ⟨t, k, hk, rfl, hst⟩ := working_origin h.1
      have hd := (hst.working hk).core_done.symm.trans h.2
      obtain rfl : k = 21 := by simpa using hd
      exact ⟨t, rfl, hst⟩
  · rintro ⟨t, rfl, hst⟩
    rw [show t + 23 = t + 1 + 22 by omega, hst.doneReg le_rfl]
    rfl

end Runs

end RiscvSoc.Aes
