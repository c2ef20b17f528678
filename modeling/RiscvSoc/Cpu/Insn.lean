import RiscvSoc.Lib.Rv32.Instr
/-!
# The instructions of the core

The base instructions, the compressed ones among them, and the six of the core's own for
interrupts. A word of neither kind is illegal.
-/

namespace RiscvSoc.Cpu

open Rv32

inductive Insn
  | base (i : Instr)
  | getq (rd q : Reg)
  | setq (q rs1 : Reg)
  | retirq (rd : Reg)
  | maskirq (rd rs1 : Reg)
  | waitirq (rd : Reg)
  | timer (rd rs1 : Reg)
  | illegal
  deriving DecidableEq

/-- What the decoder tells apart. The co-processors have all that the core does not. -/
inductive Kind
  | lui
  | auipc
  | jal
  | jalr
  | branch (op : BranchOp)
  | load (op : LoadOp)
  | store (op : StoreOp)
  | imm (op : ImmOp)
  | shiftImm (op : ShiftOp)
  | alu (op : AluOp)
  | shift (op : ShiftOp)
  | counter (c : Counter)
  | fence
  | environment
  | getq
  | setq
  | retirq
  | maskirq
  | waitirq
  | timer
  | pcpi
  deriving DecidableEq

namespace Insn

def kind : Insn → Kind
  | base (.lui ..) => .lui
  | base (.auipc ..) => .auipc
  | base (.jal ..) => .jal
  | base (.jalr ..) => .jalr
  | base (.branch op ..) => .branch op
  | base (.load op ..) => .load op
  | base (.store op ..) => .store op
  | base (.imm op ..) => .imm op
  | base (.shiftImm op ..) => .shiftImm op
  | base (.alu op ..) => .alu op
  | base (.shift op ..) => .shift op
  | base (.mul ..) | base (.div ..) | illegal => .pcpi
  | base (.counter c _) => .counter c
  | base (.fence _) => .fence
  | base .environment => .environment
  | getq .. => .getq
  | setq .. => .setq
  | retirq _ => .retirq
  | maskirq .. => .maskirq
  | waitirq _ => .waitirq
  | timer .. => .timer

/-- The opcode custom-0. -/
def ofCustom (w : Word) : Insn :=
  if funct7 w = 0b0000000 then getq (rd w) (rs1 w)
  else if funct7 w = 0b0000001 then setq (rd w) (rs1 w)
  else if funct7 w = 0b0000010 then retirq (rd w)
  else if funct7 w = 0b0000011 then maskirq (rd w) (rs1 w)
  else if funct7 w = 0b0000100 then waitirq (rd w)
  else if funct7 w = 0b0000101 then timer (rd w) (rs1 w)
  else illegal

/-- The instruction at the start of `w`. -/
def ofWord (w : Word) : Insn :=
  if w.extractLsb 1 0 ≠ 0b11 then ((decodeC (w.extractLsb 15 0)).map base).getD illegal
  else if opcode w = 0b0001011 then ofCustom w
  else ((decode w).map base).getD illegal

/-- Its length in bytes. -/
def length (w : Word) : Word := if w.extractLsb 1 0 ≠ 0b11 then 2 else 4

/-- Jumps and branches go to even distances. -/
def evenTarget : Insn → Bool
  | base i => i.evenTarget
  | _ => true

theorem evenTarget_base {o : Option Instr} (h : o.all Instr.evenTarget = true) : ((o.map base).getD illegal).evenTarget = true := by
  cases o with
  | none => rfl
  | some i => exact h

theorem ofWord_evenTarget (w : Word) : (ofWord w).evenTarget = true := by
  unfold ofWord ofCustom
  split
  · exact evenTarget_base (decodeC_evenTarget _)
  · split
    · repeat' split
      all_goals rfl
    · exact evenTarget_base (decode_evenTarget w)

end Insn

end RiscvSoc.Cpu
