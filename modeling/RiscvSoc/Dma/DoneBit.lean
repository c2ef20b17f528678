import RiscvSoc.Aes.InFlight
import RiscvSoc.Dma.Isolation
import RiscvSoc.Lib.Sticky
/-!
# DONE in `aes.v` and `dma_engine.v`

In both a START leaves DONE up. In `aes.v` a clear on the edge of the completion wins; in
`dma_engine.v` two processes write the bit, and either may come last.
-/

namespace RiscvSoc.Dma

open Sync Sticky Aes

/-! ## `aes.v` -/

section AesDone

variable (r : Run AesRegs.edge)

/-- A write of 1 to bit 1 of STATUS. -/
def ClearsAt (n : ℕ) : Prop := (r.inp n).writes AesRegs.regStatus = true ∧ (r.inp n).wdata.getLsbD 1 = true

/-- The cycle of `done`, the edge after which sets DONE. -/
def DoneAt (n : ℕ) : Prop := (r.st n).uChain.doneReg = true

theorem aes_sticky : StickyFlag (StartsAt r) (DoneAt r) (ClearsAt r) (fun _ => False) fun n => (r.st n).statusDone where
  zero := rfl
  set n hc := by
    rw [Run.st_succ, AesRegs.edge_eq, ClearsAt, show (r.st n).uChain.doneReg = true from hc]
    cases (r.inp n).writes AesRegs.regStatus <;> simp
  keep n hc := by
    have hd : (r.st n).uChain.doneReg = false := by simpa [DoneAt] using hc
    rw [Run.st_succ, AesRegs.edge_eq, ClearsAt, hd]
    cases (r.inp n).writes AesRegs.regStatus <;> simp [and_comm]
  origin e hc := by
    obtain ⟨t, rfl, hst⟩ := doneReg_iff.1 hc
    refine ⟨t, by omega, hst, fun u h1 h2 hu => ?_⟩
    obtain ⟨k, rfl⟩ := Nat.exists_eq_add_of_le (show t + 1 ≤ u from h1)
    simp [StartsAt, AesRegs.doStart_of_core (hst.busy (k := k) (by omega))] at hu
  apart n hs hcl := by
    simp only [StartsAt, AesRegs.doStart, LiteReq.writes, Bool.and_eq_true, decide_eq_true_eq] at hs
    simp only [ClearsAt, LiteReq.writes, Bool.and_eq_true, decide_eq_true_eq, hs.1.1.2] at hcl
    exact absurd hcl.1.2 (by decide)

end AesDone

/-! ## `dma_engine.v` -/

section DmaDone

variable (r : Run DmaEngine.step)

def EngineStarts (n : ℕ) : Prop := (r.st n).doStart (r.inp n).cpu = true

def EngineClears (n : ℕ) : Prop := DmaEngine.clearsDone (r.inp n).cpu = true

/-- The cycle of `ST_DONE`. -/
def EngineDone (n : ℕ) : Prop := (r.st n).fsm.state = .done

theorem engine_statusDone (n : ℕ) : (r.st (n + 1)).regs.statusDone = (r.st n).statusDoneNext (r.inp n) := by
  have hw (s : DmaRegs) (offset : BitVec 7) (wdata : Word32) :
      (DmaEngine.writeReg s offset wdata).statusDone = s.statusDone := by
    simp only [DmaEngine.writeReg, apply_ite DmaRegs.statusDone, ite_self]
  rw [Run.st_succ]
  simp only [DmaEngine.step, DmaEngine.regsStep]
  cases (r.inp n).cpu.arvalid <;> cases DmaEngine.doWrite (r.inp n).cpu <;>
    cases (r.st n).doStart (r.inp n).cpu <;> simp [hw]

variable {r}

theorem idle_of_engineStarts {n : ℕ} (h : EngineStarts r n) : (r.st n).fsm.state = .idle :=
  (start_fsm (engineCtl r n) h).1

/-- Outside of `ST_IDLE` the engine works on the last START. -/
theorem engine_origin {n : ℕ} (h : (r.st n).fsm.state ≠ .idle) :
    ∃ t < n, EngineStarts r t ∧ ∀ u, t < u → u < n → ¬ EngineStarts r u := by
  induction n with
  | zero => exact absurd rfl h
  | succ n ih =>
    by_cases hs : (r.st n).fsm.state = .idle
    · refine ⟨n, by omega, ?_, fun u h1 h2 => by omega⟩
      by_contra hno
      have hstart : (r.st n).doStart (r.inp n).cpu = false := by simpa [EngineStarts] using hno
      refine h ?_
      have hnext := fsmStep_state (r.st n) (r.inp n)
      rw [hs, hstart] at hnext
      exact hnext
    · obtain ⟨t, ht, hst, hno⟩ := ih hs
      exact ⟨t, by omega, hst, none_succ hno fun hn => hs (idle_of_engineStarts hn)⟩

variable (r)

theorem engine_sticky :
    StickyFlag (EngineStarts r) (EngineDone r) (EngineClears r) (fun n => (r.inp n).doneWins = true)
      fun n => (r.st n).regs.statusDone where
  zero := rfl
  set n hc := by
    rw [engine_statusDone, DmaEngine.statusDoneNext, EngineClears, show (r.st n).fsm.state = .done from hc]
    simp [or_comm]
  keep n hc := by
    have hs : (r.st n).fsm.state ≠ .done := hc
    rw [engine_statusDone, DmaEngine.statusDoneNext, if_neg hs, EngineClears]
    simp
  origin e hc := engine_origin (by rw [show (r.st e).fsm.state = .done from hc]; simp)
  apart n hs hcl := by
    simp only [EngineStarts, DmaEngine.doStart, Bool.and_eq_true, decide_eq_true_eq] at hs
    simp only [EngineClears, DmaEngine.clearsDone, Bool.and_eq_true, decide_eq_true_eq, hs.1.1.2] at hcl
    exact absurd hcl.1.2 (by decide)

end DmaDone

/-- DONE is exact in the runs in which no START finds it up and no clear comes in the
cycle of the completion, unless, in the DMA, the process of the completion comes last. -/
theorem done_exact_iff (r : Run AesRegs.edge) (d : Run DmaEngine.step) :
    ((∀ n, (r.st n).statusDone = true ↔ Completed (StartsAt r) (DoneAt r) (ClearsAt r) n) ↔
        (∀ n, StartsAt r n → (r.st n).statusDone = false ∧ ¬ DoneAt r n) ∧ ∀ n, DoneAt r n → ¬ ClearsAt r n) ∧
      ((∀ n, (d.st n).regs.statusDone = true ↔ Completed (EngineStarts d) (EngineDone d) (EngineClears d) n) ↔
        (∀ n, EngineStarts d n → (d.st n).regs.statusDone = false) ∧
          ∀ n, EngineDone d n → EngineClears d n → (d.inp n).doneWins = true) := by
  refine ⟨(aes_sticky r).exact_iff, (engine_sticky d).exact_iff.trans (and_congr_left fun _ => ?_)⟩
  refine forall₂_congr fun n hs => and_iff_left ?_
  intro hd
  have hidle := idle_of_engineStarts hs
  rw [show (d.st n).fsm.state = .done from hd] at hidle
  cases hidle

/-- A second START, after the block of the first has completed. -/
def restartRun : Run AesRegs.edge :=
  startRun fun n => if n = 25 then startRun.regWrite 0x00 0x1 else startRun.regWrite 0x30 0

/-- A second START of the DMA, after the first operation has completed. -/
def restartCpu (n : ℕ) : LiteReq := if n = 48 then writeReq 0x00 1 else idleReq

set_option maxRecDepth 100000 in
/-- DONE reads 1 while the second operation is BUSY. -/
theorem restart_not_exact :
    (¬ ∀ n, (restartRun.st n).statusDone = true ↔
        Completed (StartsAt restartRun) (DoneAt restartRun) (ClearsAt restartRun) n) ∧
      ¬ ∀ n, ((engineRun (cpuRun restartCpu)).st n).regs.statusDone = true ↔
        Completed (EngineStarts (engineRun (cpuRun restartCpu))) (EngineDone (engineRun (cpuRun restartCpu)))
          (EngineClears (engineRun (cpuRun restartCpu))) n := by
  constructor
  · intro h
    have hstart : StartsAt restartRun 25 := by
      unfold StartsAt
      decide +kernel
    obtain ⟨hf, hno⟩ := (aes_sticky restartRun).not_down hstart (.inl (by decide +kernel))
    exact hno ((h 26).1 hf)
  · intro h
    have hstart : EngineStarts (engineRun (cpuRun restartCpu)) 48 := by
      rw [EngineStarts, engineRun_st]
      decide +kernel
    have hdone : ((engineRun (cpuRun restartCpu)).st 48).regs.statusDone = true := by
      rw [engineRun_st]
      decide +kernel
    obtain ⟨hf, hno⟩ := (engine_sticky _).not_down hstart (.inl hdone)
    exact hno ((h 49).1 hf)

end RiscvSoc.Dma
