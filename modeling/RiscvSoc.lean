import RiscvSoc.Aes.InverseLayers
import RiscvSoc.Aes.IvRegs
import RiscvSoc.Aes.KeySecrecy
import RiscvSoc.Aes.Lockstep
import RiscvSoc.Cpu.OnCrossbar
import RiscvSoc.Dma.DoneBit
import RiscvSoc.Dma.Operations
import RiscvSoc.Dma.RamWrites
import RiscvSoc.Crossbar.Interrupts
import RiscvSoc.Crossbar.MemoryMap
import RiscvSoc.Crossbar.MemoryRun
import RiscvSoc.Jtag.Busy
import RiscvSoc.Jtag.Instructions
import RiscvSoc.Jtag.Reset
import RiscvSoc.Slaves.I2cBus
import RiscvSoc.Slaves.SpiSelect
import RiscvSoc.Slaves.Stall
import RiscvSoc.Slaves.TimerRun
import RiscvSoc.Slaves.UartBytes
import RiscvSoc.Slaves.WatchdogRun
