import RiscvSoc.Axi
import RiscvSoc.Lib.CarrySave
/-!
# `picorv32_pcpi_mul` and `picorv32_pcpi_div`

The co-processors of the core, with their default parameters: one bit of the multiplier at a
time, carry chains of four bits. A value that the source leaves undefined (`'bx`) is an input.
-/

namespace RiscvSoc.Cpu

/-- The request side of the co-processor interface. -/
structure PcpiReq where
  valid : Bool
  insn : Word32
  rs1 : Word32
  rs2 : Word32

/-- Opcode OP, `funct7` of the M extension. -/
def PcpiReq.isMulDiv (i : PcpiReq) : Bool :=
  i.valid && i.insn.extractLsb' 0 7 = 0b0110011#7 && i.insn.extractLsb' 25 7 = 0b0000001#7

def PcpiReq.funct3 (i : PcpiReq) : BitVec 3 := i.insn.extractLsb' 12 3

/-- The registers of the first always block of `picorv32_pcpi_mul`. -/
structure MulDecoder where
  instrMul : Bool
  instrMulh : Bool
  instrMulhsu : Bool
  instrMulhu : Bool
  pcpiWait : Bool
  pcpiWaitQ : Bool
  deriving Inhabited

structure MulWork where
  rs1 : BitVec 64
  rs2 : BitVec 64
  rd : BitVec 64
  rdx : BitVec 64
  mulCounter : BitVec 7
  mulWaiting : Bool
  mulFinish : Bool
  deriving Inhabited

/-- What a co-processor drives. -/
structure PcpiAnswer where
  pcpiWr : Bool
  pcpiRd : Word32
  pcpiReady : Bool
  deriving Inhabited

structure PcpiMul extends MulDecoder, MulWork, PcpiAnswer
  deriving Inhabited

namespace PcpiMul

variable (resetn : Bool) (s : PcpiMul) (i : PcpiReq)

def instrAnyMul : Bool := s.instrMul || s.instrMulh || s.instrMulhsu || s.instrMulhu

def instrAnyMulh : Bool := s.instrMulh || s.instrMulhsu || s.instrMulhu

def instrRs1Signed : Bool := s.instrMulh || s.instrMulhsu

def instrRs2Signed : Bool := s.instrMulh

def mulStart : Bool := s.pcpiWait && !s.pcpiWaitQ

def thisRs2 : BitVec 64 := if s.rs1.getLsbD 0 then s.rs2 else 0

def nextRd : BitVec 64 := CarrySave.sum 4 s.rd s.rdx s.thisRs2

def nextRdx : BitVec 64 := CarrySave.carry 4 s.rd s.rdx s.thisRs2

def nextRs1 : BitVec 64 := s.rs1 >>> 1

def nextRs2 : BitVec 64 := s.rs2 <<< 1

/-- The counter has gone below zero. -/
def lastStep : Bool := s.mulCounter.getLsbD 6

/-- The decoder of the instruction. -/
def decode : MulDecoder :=
  let insn (funct3 : BitVec 3) := resetn && i.isMulDiv && i.funct3 = funct3
  { instrMul := insn 0b000, instrMulh := insn 0b001, instrMulhsu := insn 0b010, instrMulhu := insn 0b011
    pcpiWait := s.instrAnyMul, pcpiWaitQ := s.pcpiWait }

/-- The operands are taken in while it waits, then a bit is done at each edge. -/
def work : MulWork :=
  if !resetn then { s.toMulWork with mulFinish := false, mulWaiting := true }
  else if s.mulWaiting then
    { rs1 := if s.instrRs1Signed then i.rs1.signExtend 64 else i.rs1.setWidth 64
      rs2 := if s.instrRs2Signed then i.rs2.signExtend 64 else i.rs2.setWidth 64
      rd := 0, rdx := 0
      mulCounter := if s.instrAnyMulh then 63 - 1 else 31 - 1
      mulWaiting := !s.mulStart
      mulFinish := false }
  else
    { rd := s.nextRd, rdx := s.nextRdx, rs1 := s.nextRs1, rs2 := s.nextRs2
      mulCounter := s.mulCounter - 1
      mulFinish := s.lastStep
      mulWaiting := if s.lastStep then true else s.mulWaiting }

def answer : PcpiAnswer :=
  if s.mulFinish && resetn then
    { pcpiWr := true, pcpiReady := true
      pcpiRd := (if s.instrAnyMulh then s.rd >>> 32 else s.rd).setWidth 32 }
  else { pcpiWr := false, pcpiReady := false, pcpiRd := s.pcpiRd }

def step : PcpiMul where
  toMulDecoder := s.decode resetn i
  toMulWork := s.work resetn i
  toPcpiAnswer := s.answer resetn

end PcpiMul

structure DivDecoder where
  instrDiv : Bool
  instrDivu : Bool
  instrRem : Bool
  instrRemu : Bool
  pcpiWait : Bool
  pcpiWaitQ : Bool
  deriving Inhabited

structure DivWork where
  dividend : Word32
  divisor : BitVec 63
  quotient : Word32
  quotientMsk : Word32
  running : Bool
  outsign : Bool
  deriving Inhabited

structure PcpiDiv extends DivDecoder, DivWork, PcpiAnswer
  deriving Inhabited

namespace PcpiDiv

variable (resetn : Bool) (s : PcpiDiv) (i : PcpiReq)

def instrAnyDivRem : Bool := s.instrDiv || s.instrDivu || s.instrRem || s.instrRemu

def start : Bool := s.pcpiWait && !s.pcpiWaitQ

def decode : DivDecoder :=
  let insn (funct3 : BitVec 3) := resetn && i.isMulDiv && !s.pcpiReady && i.funct3 = funct3
  { instrDiv := insn 0b100, instrDivu := insn 0b101, instrRem := insn 0b110, instrRemu := insn 0b111
    pcpiWait := s.instrAnyDivRem && resetn, pcpiWaitQ := s.pcpiWait && resetn }

def finish : Bool := s.quotientMsk = 0 && s.running

/-- The registers of the second always block but those of the answer. -/
def work : DivWork :=
  if !resetn then { s.toDivWork with running := false }
  else if s.start then
    { running := true
      dividend := if (s.instrDiv || s.instrRem) && i.rs1.getLsbD 31 then -i.rs1 else i.rs1
      -- the negation is one of 63 bits, as wide as `divisor`
      divisor := (if (s.instrDiv || s.instrRem) && i.rs2.getLsbD 31 then -i.rs2.setWidth 63 else i.rs2.setWidth 63) <<< 31
      outsign := (s.instrDiv && i.rs1.getLsbD 31 != i.rs2.getLsbD 31 && i.rs2 ≠ 0) || (s.instrRem && i.rs1.getLsbD 31)
      quotient := 0
      quotientMsk := 1 <<< 31 }
  else if s.finish then { s.toDivWork with running := false }
  else
    { s.toDivWork with
      dividend := if s.divisor.toNat ≤ s.dividend.toNat then (s.dividend.setWidth 63 - s.divisor).setWidth 32 else s.dividend
      quotient := if s.divisor.toNat ≤ s.dividend.toNat then s.quotient ||| s.quotientMsk else s.quotient
      divisor := s.divisor >>> 1
      quotientMsk := s.quotientMsk >>> 1 }

/-- `x` is what `pcpi_rd` holds while there is no answer. -/
def answer (x : Word32) : PcpiAnswer :=
  if resetn && !s.start && s.finish then
    { pcpiReady := true, pcpiWr := true
      pcpiRd :=
        if s.instrDiv || s.instrDivu then (if s.outsign then -s.quotient else s.quotient)
        else if s.outsign then -s.dividend else s.dividend }
  else { pcpiReady := false, pcpiWr := false, pcpiRd := x }

def step (x : Word32) : PcpiDiv where
  toDivDecoder := s.decode resetn i
  toDivWork := s.work resetn i
  toPcpiAnswer := s.answer resetn x

end PcpiDiv

end RiscvSoc.Cpu
