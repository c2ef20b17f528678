import RiscvSoc.Cpu.AccessPhases
import RiscvSoc.Cpu.ExecPhases
import RiscvSoc.Cpu.PcpiPhases
import RiscvSoc.Lib.Simulation
/-!
# The core runs the program

Every edge is a step of the program's machine or none, so the accesses to data that are seen
on the bus are those of the program, in its order, and the registers are its registers.
-/

namespace RiscvSoc.Cpu

open Rv32

namespace Core

variable {code : Word32 → Word32} {a : Arch} {s : Core} {i : CoreIn}

theorem Phase.step (h : Phase code a s) (hc : Answers code s i) : Advances code a s i := by
  cases h with
  | fetch h => exact h.step hc
  | dispatch h => exact h.step
  | waits h => exact h.step
  | savesPc h => exact h.step
  | savesIrq h => exact h.step hc
  | operands h => exact h.step hc
  | pcpi h => exact h.step hc
  | computes h => exact h.step hc
  | fallsThrough h => exact h.step hc
  | branches _ h => exact h.step
  | shifts h => exact h.step hc
  | storeFetches h => exact h.step hc
  | loadFetches h => exact h.step hc
  | stores h => exact h.step
  | loads h => exact h.step
  | stops h => exact h.step
  | stopped h => exact h.step

theorem simulates (code : Word32 → Word32) : Sync.Simulates step access (Answers code) (Arch.Step code) (Phase code) :=
  fun _ _ _ h hc => h.step hc

/-! ## Reset -/

/-- Two edges of it leave the core waiting for the first instruction. -/
theorem fetches_reset (s : Core) (i j : CoreIn) :
    ∃ a : Arch, a.Initial ∧ Fetches code a ((s.step false i).step false j) := by
  generalize hs : s.step false i = s₁
  have hm : (s₁.step false j).toMain = s₁.finish false j (reset (s₁.defaults false j)) := rfl
  refine ⟨⟨0, (s₁.step false j).cpuregsNext true, ~~~0, false, false⟩, ⟨rfl, ?_, rfl, rfl, rfl⟩, ?_⟩
  · rfl
  · have hnone : NoData (s₁.step false j) := ⟨rfl, rfl⟩
    exact
      { stopped := rfl
        trap := rfl
        mask := rfl
        evenPc := by
          change (0 : Word32).getLsbD 0 = false
          decide
        evenReg := by
          change progaddrReset.getLsbD 0 = false
          decide
        clear := clearPrefetchedHighWordQ_step false
        toNoData := hnone
        state := rfl
        irqState := rfl
        regs := rfl
        pc := rfl
        active := rfl
        trigger := by
          change (s₁.memDoRinst && s₁.memDone false j) = false
          exact Bool.and_false _
        waitirq := rfl
        pcpi := ⟨rfl, .inl (by rw [← hs]; exact PcpiMul.quiet_reset _ _ _), .inl (PcpiDiv.quiet_reset s₁.div ⟨s₁.pcpiReq, j.undef.pcpiRd⟩)⟩
        fetch := .inl ⟨rfl, rfl, ⟨rfl, rfl, rfl, rfl⟩, .inr (.inl rfl)⟩ }

/-! ## Runs -/

/-- Between two instructions the registers of the core are those of the program, or about to be. -/
structure Shows (a : Arch) (s : Core) : Prop where
  regs : s.cpuState = .fetch → s.irqState = 0 → s.cpuregsNext true = a.regs
  pc : s.cpuState = .fetch → s.irqState = 0 → s.currentPc = a.pc
  irqActive : s.cpuState = .fetch → s.irqState = 0 → s.irqActive = a.irqActive
  irqMask : s.cpuState ≠ .trap → s.irqMask = a.irqMask
  stopped : a.stopped = true → s.cpuState = .trap
  trap : s.trap = true → s.cpuState = .trap

theorem Between.shows (h : Between a s) : Shows a s where
  regs _ _ := h.regs
  pc _ _ := h.pc
  irqActive _ _ := h.active
  irqMask _ := h.mask
  stopped hs := by rw [h.stopped] at hs; cases hs
  trap ht := by rw [h.trap] at ht; cases ht

theorem Running.shows (h : Running a s) (hs : s.cpuState = .fetch → s.irqState ≠ 0) : Shows a s where
  regs h0 h1 := absurd h1 (hs h0)
  pc h0 h1 := absurd h1 (hs h0)
  irqActive h0 h1 := absurd h1 (hs h0)
  irqMask _ := h.mask
  stopped hs := by rw [h.stopped] at hs; cases hs
  trap ht := by rw [h.trap] at ht; cases ht

theorem shows_of_trap (h : s.cpuState = .trap) : Shows a s where
  regs h0 := by rw [h] at h0; cases h0
  pc h0 := by rw [h] at h0; cases h0
  irqActive h0 := by rw [h] at h0; cases h0
  irqMask h0 := absurd h h0
  stopped _ := h
  trap _ := h

theorem Phase.shows (h : Phase code a s) : Shows a s := by
  cases h with
  | fetch h => exact h.toBetween.shows
  | dispatch h => exact h.toBetween.shows
  | waits h => exact h.toBetween.shows
  | savesPc h => exact h.toRunning.shows fun _ => by rw [h.irqState]; decide
  | savesIrq h => exact h.toRunning.shows fun _ => by rw [h.irqState]; decide
  | operands h => exact h.toRunning.shows fun h0 => absurd h0 (ne_of_ldRs1 h.state)
  | pcpi h => exact h.toRunning.shows fun h0 => absurd h0 (ne_of_ldRs1 h.state)
  | computes h => exact h.toRunning.shows fun h0 => absurd h0 (ne_of_exec h.state)
  | fallsThrough h => exact h.toRunning.shows fun h0 => absurd h0 (ne_of_exec h.state)
  | branches _ h => exact h.toRunning.shows fun h0 => absurd h0 (ne_of_exec h.state)
  | shifts h => exact h.toRunning.shows fun h0 => absurd h0 (ne_of_shift h.state)
  | storeFetches h => exact h.toRunning.shows fun h0 => absurd h0 (ne_of_stmem h.state)
  | loadFetches h => exact h.toRunning.shows fun h0 => absurd h0 (ne_of_ldmem h.state)
  | stores h => exact h.toRunning.shows fun h0 => absurd h0 (ne_of_stmem h.state)
  | loads h => exact h.toRunning.shows fun h0 => absurd h0 (ne_of_ldmem h.state)
  | stops h => exact shows_of_trap h.state
  | stopped h => exact shows_of_trap h.state

theorem runs_phases (code : Word32 → Word32) (r : Sync.Run step) (hreset : ∃ s i, r.powerUp = step false s i)
    (hcode : ∀ n, Answers code (r.st n) (r.inp n)) :
    ∃ arch : ℕ → Arch, (arch 0).Initial ∧ (∀ n, Phase code (arch n) (r.st n)) ∧
      (∀ n, Sync.Stutters (Arch.Step code) (arch n) ((r.st n).access (r.inp n)) (arch (n + 1))) ∧
      ∀ n, Sync.Trace (Arch.Step code) (arch 0) (Sync.collect (fun k => (r.st k).access (r.inp k)) 0 n) (arch n) := by
  obtain ⟨s, i, hs⟩ := hreset
  obtain ⟨a, ha, hfetch⟩ := fetches_reset s i r.resetInp
  have h0 : Phase code a (r.st 0) := by
    rw [r.st_zero, hs]
    exact .fetch hfetch
  obtain ⟨arch, rfl, hphase, hstep, htrace⟩ := (simulates code).run r h0 hcode
  exact ⟨arch, ha, hphase, hstep, htrace⟩

/-- After a reset of two edges or more, and with an instruction memory that answers with
`code`: the core runs that program. Each cycle is a step of the program's machine, with the
access to data that is completed in it, or none without one; the accesses so far are the
trace of the steps so far, and the registers are those of the machine where it is between
two instructions. -/
theorem core_refines (code : Word32 → Word32) (r : Sync.Run step) (hreset : ∃ s i, r.powerUp = step false s i)
    (hcode : ∀ n, Answers code (r.st n) (r.inp n)) :
    ∃ arch : ℕ → Arch, (arch 0).Initial ∧ (∀ n, Shows (arch n) (r.st n)) ∧
      (∀ n, Sync.Stutters (Arch.Step code) (arch n) ((r.st n).access (r.inp n)) (arch (n + 1))) ∧
      ∀ n, Sync.Trace (Arch.Step code) (arch 0) (Sync.collect (fun k => (r.st k).access (r.inp k)) 0 n) (arch n) := by
  obtain ⟨arch, ha, hphase, hstep, htrace⟩ := runs_phases code r hreset hcode
  exact ⟨arch, ha, fun n => (hphase n).shows, hstep, htrace⟩

/-- `sw x2, 0(x0)` at every address. -/
def storeCode : Word32 → Word32 := fun _ => 0x00202023

/-- A memory that answers at once. -/
def storeRun : Sync.Run step where
  powerUp := step false default ⟨true, 0x00202023, 0, default⟩
  resetInp := ⟨true, 0x00202023, 0, default⟩
  inp _ := ⟨true, 0x00202023, 0, default⟩

theorem stores_refine : ∃ arch : ℕ → Arch, (arch 0).Initial ∧ (∀ n, Shows (arch n) (storeRun.st n)) ∧
    (∀ n, Sync.Stutters (Arch.Step storeCode) (arch n) ((storeRun.st n).access (storeRun.inp n)) (arch (n + 1))) ∧
    ∀ n, Sync.Trace (Arch.Step storeCode) (arch 0) (Sync.collect (fun k => (storeRun.st k).access (storeRun.inp k)) 0 n) (arch n) :=
  core_refines storeCode storeRun ⟨default, ⟨true, 0x00202023, 0, default⟩, rfl⟩ fun _ _ _ _ => rfl

end Core

end RiscvSoc.Cpu
