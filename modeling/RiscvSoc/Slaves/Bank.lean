import RiscvSoc.Crossbar.Model
import RiscvSoc.Dma.Engine
import RiscvSoc.Slaves.AesRegs
import RiscvSoc.Slaves.I2c
import RiscvSoc.Slaves.Memories
import RiscvSoc.Slaves.Spi
import RiscvSoc.Slaves.Timers
import RiscvSoc.Slaves.Uart
/-!
# The slaves behind the crossbar
-/

namespace RiscvSoc

/-- The DMA with its memory; what the language leaves open at an edge of
`status_done` is its only other input. -/
def Dma.DmaSys.slave (k : ℕ) : PulseSlave where
  State := Dma.DmaSys k
  Env := Bool
  rsp s := s.engine.rsp
  step resetn s doneWins i := s.step resetn ⟨i, doneWins⟩
  ready _ := ⟨rfl, rfl, rfl⟩
  bvalid_step s e i := by
    simp only [Dma.DmaSys.step, Dma.DmaEngine.step, Dma.DmaEngine.rsp, Dma.DmaEngine.regsStep]
    grind [Dma.DmaEngine.doWrite]
  rvalid_step s e i := by
    simp only [Dma.DmaSys.step, Dma.DmaEngine.step, Dma.DmaEngine.rsp, Dma.DmaEngine.regsStep]
    grind

open Crossbar

/-- The nine slaves of `soc_top.v`, with the parameters it gives them. -/
def socBank : Slave → PulseSlave
  | .rom => BootRom.slave
  | .ram => Sram.slave
  | .timer => Timer.slave
  | .wdt => Watchdog.slave 4
  | .uart => Uart.slave 4
  | .i2c => I2cMaster.slave
  | .spi => SpiMaster.slave
  | .aes => Aes.AesRegs.slave
  | .dma => Dma.DmaSys.slave 11

end RiscvSoc
