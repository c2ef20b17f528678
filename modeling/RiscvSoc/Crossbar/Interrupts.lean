import RiscvSoc.Crossbar.Diagnostics
import RiscvSoc.Crossbar.Fabric
import RiscvSoc.Dma.Run
/-!
# The interrupt lines of `soc_top.v`

Seven sources on one bus. In five of them what raises the line also leaves a state
that cannot raise it again; the timer and the crossbar's line can be high for longer,
and it is said when.
-/

namespace RiscvSoc.Crossbar

open Sync

/-! ## The bus -/

namespace Fabric

variable (s : Fabric socBank)

def timerIrq : Bool := Timer.irqPulse (s.dev .timer)
def wdtIrq : Bool := Watchdog.irqPulse (s.dev .wdt)
def i2cIrq : Bool := I2cMaster.irqPulse (s.dev .i2c)
def spiIrq : Bool := SpiMaster.irqPulse (s.dev .spi)
def aesIrq : Bool := Aes.AesRegs.irqPulse (s.dev .aes)
def dmaIrq : Bool := @Dma.DmaSys.irq 11 (s.dev .dma)

/-- `irq_bus`. -/
def irqBus : Word32 :=
  0#22 ++ BitVec.ofBool s.xbar.decerrIrq ++ BitVec.ofBool s.dmaIrq ++ BitVec.ofBool s.aesIrq ++
    BitVec.ofBool s.spiIrq ++ BitVec.ofBool s.i2cIrq ++ BitVec.ofBool s.wdtIrq ++ BitVec.ofBool s.timerIrq ++ 0#3

/-- The source of each line. -/
def irqLine : ℕ → Bool
  | 3 => s.timerIrq
  | 4 => s.wdtIrq
  | 5 => s.i2cIrq
  | 6 => s.spiIrq
  | 7 => s.aesIrq
  | 8 => s.dmaIrq
  | 9 => s.xbar.decerrIrq
  | _ => false

theorem irqBus_getLsbD (k : ℕ) : s.irqBus.getLsbD k = s.irqLine k := by
  simp only [irqBus, BitVec.getLsbD_append, BitVec.getLsbD_ofBool]
  match k with
  | 0 | 1 | 2 | 3 | 4 | 5 | 6 | 7 | 8 | 9 => simp [irqLine]
  | k + 10 => simp [irqLine]

end Fabric

/-- What the reset of a slave establishes and its edges keep holds in every cycle, and
a line that cannot follow itself does not. -/
theorem irq_pulses {bank : Slave → PulseSlave} (r : Run (@Fabric.step bank)) (p : Slave) (irq : (bank p).State → Bool)
    {I : (bank p).State → Prop} (reset : ∀ s e i, I ((bank p).step false s e i))
    (edge : ∀ s e i, I s → I ((bank p).step true s e i))
    (quiet : ∀ s e i, I s → irq s = true → irq ((bank p).step true s e i) = false) (n : ℕ) :
    ¬ (irq ((r.st n).dev p) = true ∧ irq ((r.st (n + 1)).dev p) = true) := by
  rintro ⟨hn, hn'⟩
  have hI : I ((r.st n).dev p) := r.invariant (I := fun s => I (s.dev p)) (fun _ _ => reset _ _ _)
    (fun _ _ h => edge _ _ _ h) n
  have hq := quiet _ ((r.inp n).env p) ((r.st n).xbar.req p) hI hn
  exact absurd (hq.symm.trans hn') (by decide)

/-! ## Lines that are one cycle long -/

section Pulses

variable (r : Run (@Fabric.step socBank)) (n : ℕ)

/-- The watchdog leaves the margin with the pulse. -/
theorem wdtIrq_pulses : ¬ ((r.st n).wdtIrq = true ∧ (r.st (n + 1)).wdtIrq = true) := by
  refine irq_pulses r .wdt Watchdog.irqPulse (I := fun s : Watchdog => s.irqPulse = true → s.count.toNat = 3)
    (fun s e i h => ?_) (fun s e i _ h => ?_) (fun s e i hI h => ?_) n
  · cases h
  · simp only [socBank, Watchdog.slave, Watchdog.step] at h ⊢
    grind
  · simp only [socBank, Watchdog.slave, Watchdog.step]
    grind

theorem i2cIrq_pulses : ¬ ((r.st n).i2cIrq = true ∧ (r.st (n + 1)).i2cIrq = true) := by
  refine irq_pulses r .i2c I2cMaster.irqPulse (I := fun s : I2cMaster => s.irqPulse = true → s.state = .idle)
    (fun s e i h => ?_) (fun s e i _ h => ?_) (fun s e i hI h => ?_) n
  · cases h
  · simp only [socBank, I2cMaster.slave, I2cMaster.step, I2cMaster.fsm, I2cMaster.tickStep] at h ⊢
    cases hs : I2cMaster.state s <;> simp only [hs, I2cMaster.lowPhase, I2cMaster.highPhase] at h ⊢ <;> grind
  · simp only [socBank, I2cMaster.slave, I2cMaster.step, I2cMaster.fsm, hI h]
    grind

theorem spiIrq_pulses : ¬ ((r.st n).spiIrq = true ∧ (r.st (n + 1)).spiIrq = true) := by
  refine irq_pulses r .spi SpiMaster.irqPulse (I := fun s : SpiMaster => s.irqPulse = true → s.state = .idle)
    (fun s e i h => ?_) (fun s e i _ h => ?_) (fun s e i hI h => ?_) n
  · cases h
  · simp only [socBank, SpiMaster.slave, SpiMaster.step, SpiMaster.fsm] at h ⊢
    cases hs : SpiMaster.state s <;> simp only [hs] at h ⊢ <;> grind
  · simp only [socBank, SpiMaster.slave, SpiMaster.step, SpiMaster.fsm, hI h]
    grind

/-- The chain is idle with a result, and its next edge takes `done` away. -/
theorem aesIrq_pulses : ¬ ((r.st n).aesIrq = true ∧ (r.st (n + 1)).aesIrq = true) := by
  refine irq_pulses r .aes Aes.AesRegs.irqPulse
    (I := fun s : Aes.AesRegs => (s.uChain.doneReg = true → s.uChain.state = .idle) ∧
      (s.irqPulse = true → s.uChain.doneReg = false))
    (fun s e i => ?_) (fun s e i hI => ?_) (fun s e i hI h => ?_) n
  · constructor <;> intro h <;> cases h
  · obtain ⟨hidle, -⟩ := hI
    simp only [socBank, Aes.AesRegs.slave, Aes.AesRegs.step, Aes.AesChain.step, Aes.AesChain.fsm]
    cases hs : (Aes.AesRegs.uChain s).state <;> simp only [hs] at hidle ⊢ <;> grind
  · simpa [socBank, Aes.AesRegs.slave, Aes.AesRegs.step] using hI.2 h

theorem dmaIrq_pulses : ¬ ((r.st n).dmaIrq = true ∧ (r.st (n + 1)).dmaIrq = true) := by
  refine irq_pulses r .dma (@Dma.DmaSys.irq 11)
    (I := fun s : Dma.DmaSys 11 => s.engine.fsm.irqPulse = true → s.engine.fsm.state = .idle)
    (fun s e i h => ?_) (fun s e i _ h => ?_) (fun s e i hI h => ?_) n
  · cases h
  · simp only [socBank, Dma.DmaSys.slave, Dma.DmaSys.step, Dma.DmaEngine.step, Dma.DmaEngine.fsmStep,
      Dma.DmaEngine.fsmCase] at h ⊢
    cases hs : (Dma.DmaSys.engine s).fsm.state <;> simp only [hs] at h ⊢ <;> grind
  · simp only [socBank, Dma.DmaSys.slave, Dma.DmaSys.irq, Dma.DmaSys.step, Dma.DmaEngine.step, Dma.DmaEngine.fsmStep,
      Dma.DmaEngine.fsmCase, hI h]
    grind

end Pulses

/-! ## The timer -/

section TimerLine

variable (r : Run (@Fabric.step socBank)) (n : ℕ)

/-- In cycle `n` the counter expires and is reloaded with 0, the timer is not disabled,
and the next edge does not start it anew. -/
def TimerRepeats : Prop :=
  ((r.st n).dev .timer : Timer).expires ((r.st n).xbar.req .timer) = true ∧
    ((r.st n).dev .timer : Timer).reloadReg = 0 ∧ ((r.st n).xbar.req .timer).writes Timer.regCtrl = false ∧
    Timer.writeCtrlEn ((r.st (n + 1)).xbar.req .timer) = false

theorem timerIrq_succ :
    (r.st (n + 1)).timerIrq = ((r.st n).dev .timer : Timer).expires ((r.st n).xbar.req .timer) := rfl

/-- After an expiry the next edge expires again exactly if the counter is 0 again and
the timer is still on. -/
theorem timer_expires_again {s : Timer} {i i' : LiteReq} (h : s.expires i = true) :
    (s.step true i).expires i' = true ↔
      s.reloadReg = 0 ∧ i.writes Timer.regCtrl = false ∧ Timer.writeCtrlEn i' = false := by
  simp only [Timer.expires, Timer.step, Timer.writeCtrlEn] at h ⊢
  grind

theorem timerIrq_twice : ((r.st (n + 1)).timerIrq = true ∧ (r.st (n + 2)).timerIrq = true) ↔ TimerRepeats r n := by
  rw [timerIrq_succ, timerIrq_succ, TimerRepeats, and_congr_right_iff]
  exact fun h => timer_expires_again h

end TimerLine

/-! ## The crossbar's line -/

section Decerr

variable (r : Run AxiLiteXbar.step) (n : ℕ)

/-- A miss of one kind in cycle `n` and one of the other in the next. -/
def MissesFollow : Prop := (MissesW r n ∧ MissesR r (n + 1)) ∨ (MissesR r n ∧ MissesW r (n + 1))

/-- The address is held, or the transaction is on its way. -/
theorem not_missesW_twice : ¬ (MissesW r n ∧ MissesW r (n + 1)) := by
  rintro ⟨⟨m, a, hm, -⟩, m', a', hm', -⟩
  obtain ⟨-, hf, -⟩ := mem_aw.1 hm
  obtain ⟨-, hf', -⟩ := mem_aw.1 hm'
  rw [Run.st_succ] at hf'
  simp only [WritePath.awFire, WritePath.curAwready, AxiLiteXbar.step, WritePath.step, WritePath.idleStep,
    WritePath.awReadyC] at hf hf'
  grind

theorem not_missesR_twice : ¬ (MissesR r n ∧ MissesR r (n + 1)) := by
  rintro ⟨⟨m, a, hm, -⟩, m', a', hm', -⟩
  obtain ⟨-, ⟨hs, hv⟩, -⟩ := mem_ar.1 hm
  obtain ⟨-, ⟨hs', -⟩, -⟩ := mem_ar.1 hm'
  simp [Run.st_succ, AxiLiteXbar.step, ReadPath.step, hs, ReadPath.idleStep, hv] at hs'

theorem decerrIrq_twice :
    ((r.st (n + 1)).decerrIrq = true ∧ (r.st (n + 2)).decerrIrq = true) ↔ MissesFollow r n := by
  have hw := not_missesW_twice r n
  have hr := not_missesR_twice r n
  rw [decerrIrq_succ, decerrIrq_succ, MissesFollow]
  tauto

end Decerr

/-! ## The bus -/

/-- No line is high in two cycles in a row. -/
def IrqPulses (r : Run (@Fabric.step socBank)) : Prop :=
  ∀ k n, ¬ ((r.st n).irqBus.getLsbD k = true ∧ (r.st (n + 1)).irqBus.getLsbD k = true)

/-- The lines are one-cycle pulses exactly in the runs where the timer does not expire
twice in a row and no miss follows one on the other channel. -/
theorem irqPulses_iff (r : Run (@Fabric.step socBank)) :
    IrqPulses r ↔ (∀ n, ¬ TimerRepeats r n) ∧ ∀ n, ¬ MissesFollow (Fabric.xbarRun r) n := by
  simp only [IrqPulses, Fabric.irqBus_getLsbD, ← timerIrq_twice, ← decerrIrq_twice, Fabric.xbarRun_st]
  constructor
  · exact fun h => ⟨fun n => h 3 (n + 1), fun n => h 9 (n + 1)⟩
  · rintro ⟨htimer, hdecerr⟩ k n
    match k with
    | 3 =>
      cases n with
      | zero => exact fun h => Bool.noConfusion h.1
      | succ n => exact htimer n
    | 4 => exact wdtIrq_pulses r n
    | 5 => exact i2cIrq_pulses r n
    | 6 => exact spiIrq_pulses r n
    | 7 => exact aesIrq_pulses r n
    | 8 => exact dmaIrq_pulses r n
    | 9 =>
      cases n with
      | zero => exact fun h => Bool.noConfusion h.1
      | succ n => exact hdecerr n
    | 0 | 1 | 2 | k + 10 => exact fun h => Bool.noConfusion h.1

/-- The CPU misses with a read and, in the next cycle, with a write. Then it sets the
timer's RELOAD to 0 and starts it. -/
def irqUp : ℕ → LiteReq
  | 0 => ⟨false, 0, false, 0, 0, true, true, 0x80000000, true⟩
  | 1 => ⟨true, 0x80000000, true, 0, 0xF, true, false, 0, true⟩
  | 2 | 3 | 4 | 5 => ⟨true, 0x40000004, true, 0, 0xF, true, false, 0, true⟩
  | _ => ⟨true, 0x40000000, true, 1, 0xF, true, false, 0, true⟩

def irqRun : Run (@Fabric.step socBank) where
  powerUp :=
    { xbar := fairRun.powerUp
      dev
        | .rom => (⟨fun _ => 0, port⟩ : BootRom)
        | .ram => (⟨fun _ => 0, port⟩ : Sram)
        | .timer => (⟨true, 0, 0, true, true, port⟩ : Timer)
        | .wdt => (⟨true, 0, 0, true, true, true, port⟩ : Watchdog)
        | .uart => (⟨.stop, 0, 0, 0, true, 0, false, port⟩ : Uart)
        | .i2c => (⟨.stop, 0, 0, true, 0, 0, 0, 0, 0, 0, 0, true, true, true, true, true, true, true, port⟩ : I2cMaster)
        | .spi => (⟨.run, true, true, 0, 0, 0, 0, 0, 0, 0, true, true, true, true, true, true, port⟩ : SpiMaster)
        | .aes => (⟨0, 0, 0, true, 0, true, true, port, Dma.dmaRun.powerUp.engine.uChain⟩ : Aes.AesRegs)
        | .dma => Dma.dmaRun.powerUp }
  resetInp := ⟨fun _ => irqUp 0, env⟩
  inp n := ⟨fun | .s0 => irqUp n | .s1 => Dma.idleReq, env⟩
where
  port : LitePort := ⟨true, 0, true, 0, 0⟩
  env : (p : Slave) → (socBank p).Env
    | .rom | .ram | .timer | .wdt | .uart | .aes => ()
    | .i2c | .spi | .dma => false

/-- Two misses hold the crossbar's line for two cycles, and a timer with RELOAD 0 holds
its own. -/
theorem irqRun_overlaps :
    ((irqRun.st 1).irqBus.getLsbD 9 = true ∧ (irqRun.st 2).irqBus.getLsbD 9 = true) ∧
      ((irqRun.st 13).irqBus.getLsbD 3 = true ∧ (irqRun.st 14).irqBus.getLsbD 3 = true) ∧ ¬ IrqPulses irqRun := by
  have hmiss : (irqRun.st 1).irqBus.getLsbD 9 = true ∧ (irqRun.st 2).irqBus.getLsbD 9 = true := by decide +kernel
  exact ⟨hmiss, by decide +kernel, fun h => h 9 1 hmiss⟩

end RiscvSoc.Crossbar
