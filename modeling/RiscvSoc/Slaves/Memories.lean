import RiscvSoc.Slaves.Port
import RiscvSoc.Lib.Bytes
/-!
# `sram.v` and `boot_rom.v`
-/

namespace RiscvSoc

/-- The contents of the SRAM, by word index. -/
abbrev SramMem := BitVec 15 → Word32

structure Sram where
  mem : SramMem
  port : LitePort

namespace Sram

/-- `addr[16:2]`. -/
def wordIdx (addr : Word32) : BitVec 15 := addr.extractLsb' 2 15

def write (mem : SramMem) (addr data : Word32) (strb : BitVec 4) : SramMem :=
  Function.update mem (wordIdx addr) (Bytes.merge strb (mem (wordIdx addr)) data)

/-- A read on the edge of a write gets the word from before it. -/
def step (resetn : Bool) (s : Sram) (i : LiteReq) : Sram :=
  if !resetn then { s with port := s.port.clear }
  else
    { mem := if i.doWrite then write s.mem i.awaddr i.wdata i.wstrb else s.mem
      port := s.port.answer i axiRespOkay (s.mem (wordIdx i.araddr)) }

def slave : PulseSlave where
  State := Sram
  Env := Unit
  rsp s := s.port.rsp
  step resetn s _ i := s.step resetn i
  ready _ := ⟨rfl, rfl, rfl⟩
  bvalid_step _ _ _ := rfl
  rvalid_step _ _ _ := rfl

end Sram

/-- `mem` is what `HEXFILE` holds; nothing writes it. -/
structure BootRom where
  mem : BitVec 14 → Word32
  port : LitePort

namespace BootRom

/-- `addr[15:2]`. -/
def wordIdx (addr : Word32) : BitVec 14 := addr.extractLsb' 2 14

def step (resetn : Bool) (s : BootRom) (i : LiteReq) : BootRom :=
  if !resetn then { s with port := s.port.clear }
  else { s with port := s.port.answer i axiRespSlverr (s.mem (wordIdx i.araddr)) }

def slave : PulseSlave where
  State := BootRom
  Env := Unit
  rsp s := s.port.rsp
  step resetn s _ i := s.step resetn i
  ready _ := ⟨rfl, rfl, rfl⟩
  bvalid_step _ _ _ := rfl
  rvalid_step _ _ _ := rfl

end BootRom

end RiscvSoc
