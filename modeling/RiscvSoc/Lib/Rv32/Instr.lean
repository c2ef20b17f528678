import RiscvSoc.Lib.Rv32.MulDiv
/-!
# The instructions of RV32IMC

The base instructions, their encodings in 32 bits and the compressed ones in 16. Reading a
counter is the only CSR access.
-/

namespace Rv32

abbrev Word := BitVec 32
abbrev Reg := BitVec 5

inductive BranchOp
  | beq
  | bne
  | blt
  | bge
  | bltu
  | bgeu
  deriving DecidableEq, Repr

inductive LoadOp
  | lb
  | lh
  | lw
  | lbu
  | lhu
  deriving DecidableEq, Repr

inductive StoreOp
  | sb
  | sh
  | sw
  deriving DecidableEq, Repr

/-- The operations with an immediate, but for the shifts. -/
inductive ImmOp
  | addi
  | slti
  | sltiu
  | xori
  | ori
  | andi
  deriving DecidableEq, Repr

inductive ShiftOp
  | sll
  | srl
  | sra
  deriving DecidableEq, Repr

inductive AluOp
  | add
  | sub
  | slt
  | sltu
  | xor
  | or
  | and
  deriving DecidableEq, Repr

inductive Counter
  | cycle
  | cycleh
  | instret
  | instreth
  deriving DecidableEq, Repr

inductive Instr
  | lui (rd : Reg) (imm : Word)
  | auipc (rd : Reg) (imm : Word)
  | jal (rd : Reg) (imm : Word)
  | jalr (rd rs1 : Reg) (imm : Word)
  | branch (op : BranchOp) (rs1 rs2 : Reg) (imm : Word)
  | load (op : LoadOp) (rd rs1 : Reg) (imm : Word)
  | store (op : StoreOp) (rs1 rs2 : Reg) (imm : Word)
  | imm (op : ImmOp) (rd rs1 : Reg) (imm : Word)
  | shiftImm (op : ShiftOp) (rd rs1 : Reg) (shamt : BitVec 5)
  | alu (op : AluOp) (rd rs1 rs2 : Reg)
  | shift (op : ShiftOp) (rd rs1 rs2 : Reg)
  | mul (op : MulOp) (rd rs1 rs2 : Reg)
  | div (op : DivOp) (rd rs1 rs2 : Reg)
  | counter (c : Counter) (rd : Reg)
  /-- `rd` is a reserved field. -/
  | fence (rd : Reg)
  | environment
  deriving DecidableEq, Repr

/-! ## Function codes -/

def BranchOp.funct3 : BranchOp → BitVec 3
  | beq => 0
  | bne => 1
  | blt => 4
  | bge => 5
  | bltu => 6
  | bgeu => 7

def BranchOp.ofFunct3 (f : BitVec 3) : Option BranchOp :=
  [beq, bne, blt, bge, bltu, bgeu].find? fun op => f = op.funct3

def LoadOp.funct3 : LoadOp → BitVec 3
  | lb => 0
  | lh => 1
  | lw => 2
  | lbu => 4
  | lhu => 5

def LoadOp.ofFunct3 (f : BitVec 3) : Option LoadOp := [lb, lh, lw, lbu, lhu].find? fun op => f = op.funct3

def StoreOp.funct3 : StoreOp → BitVec 3
  | sb => 0
  | sh => 1
  | sw => 2

def StoreOp.ofFunct3 (f : BitVec 3) : Option StoreOp := [sb, sh, sw].find? fun op => f = op.funct3

def ImmOp.funct3 : ImmOp → BitVec 3
  | addi => 0
  | slti => 2
  | sltiu => 3
  | xori => 4
  | ori => 6
  | andi => 7

def ImmOp.ofFunct3 (f : BitVec 3) : Option ImmOp := [addi, slti, sltiu, xori, ori, andi].find? fun op => f = op.funct3

def ShiftOp.functs : ShiftOp → BitVec 3 × BitVec 7
  | sll => (1, 0b0000000)
  | srl => (5, 0b0000000)
  | sra => (5, 0b0100000)

def ShiftOp.ofFuncts (f : BitVec 3) (g : BitVec 7) : Option ShiftOp := [sll, srl, sra].find? fun op => (f, g) = op.functs

def AluOp.functs : AluOp → BitVec 3 × BitVec 7
  | add => (0, 0b0000000)
  | sub => (0, 0b0100000)
  | slt => (2, 0b0000000)
  | sltu => (3, 0b0000000)
  | xor => (4, 0b0000000)
  | or => (6, 0b0000000)
  | and => (7, 0b0000000)

def AluOp.ofFuncts (f : BitVec 3) (g : BitVec 7) : Option AluOp :=
  [add, sub, slt, sltu, xor, or, and].find? fun op => (f, g) = op.functs

/-- The number of the CSR; `time` is read as `cycle`. -/
def Counter.ofCsr (csr : BitVec 12) : Option Counter :=
  if csr = 0xC00 || csr = 0xC01 then some cycle
  else if csr = 0xC80 || csr = 0xC81 then some cycleh
  else if csr = 0xC02 then some instret
  else if csr = 0xC82 then some instreth
  else none

/-! ## 32-bit instructions -/

section Fields

variable (w : Word)

def opcode : BitVec 7 := w.extractLsb 6 0
def rd : Reg := w.extractLsb 11 7
def funct3 : BitVec 3 := w.extractLsb 14 12
def rs1 : Reg := w.extractLsb 19 15
def rs2 : Reg := w.extractLsb 24 20
def funct7 : BitVec 7 := w.extractLsb 31 25

def immI : Word := (w.extractLsb 31 20).signExtend 32
def immS : Word := (w.extractLsb 31 25 ++ w.extractLsb 11 7).signExtend 32
def immB : Word := (w.extractLsb 31 31 ++ w.extractLsb 7 7 ++ w.extractLsb 30 25 ++ w.extractLsb 11 8 ++ 0#1).signExtend 32
def immU : Word := w.extractLsb 31 12 ++ 0#12
def immJ : Word := (w.extractLsb 31 31 ++ w.extractLsb 19 12 ++ w.extractLsb 20 20 ++ w.extractLsb 30 21 ++ 0#1).signExtend 32

def decode : Option Instr :=
  if opcode w = 0b0110111 then some (.lui (rd w) (immU w))
  else if opcode w = 0b0010111 then some (.auipc (rd w) (immU w))
  else if opcode w = 0b1101111 then some (.jal (rd w) (immJ w))
  else if opcode w = 0b1100111 then (if funct3 w = 0 then some (.jalr (rd w) (rs1 w) (immI w)) else none)
  else if opcode w = 0b1100011 then (BranchOp.ofFunct3 (funct3 w)).map (.branch · (rs1 w) (rs2 w) (immB w))
  else if opcode w = 0b0000011 then (LoadOp.ofFunct3 (funct3 w)).map (.load · (rd w) (rs1 w) (immI w))
  else if opcode w = 0b0100011 then (StoreOp.ofFunct3 (funct3 w)).map (.store · (rs1 w) (rs2 w) (immS w))
  else if opcode w = 0b0010011 then
    ((ImmOp.ofFunct3 (funct3 w)).map (.imm · (rd w) (rs1 w) (immI w))).or
      ((ShiftOp.ofFuncts (funct3 w) (funct7 w)).map (.shiftImm · (rd w) (rs1 w) (rs2 w)))
  else if opcode w = 0b0110011 then
    ((AluOp.ofFuncts (funct3 w) (funct7 w)).map (.alu · (rd w) (rs1 w) (rs2 w))).or
      (((ShiftOp.ofFuncts (funct3 w) (funct7 w)).map (.shift · (rd w) (rs1 w) (rs2 w))).or
        (((MulOp.ofInsn w).map (.mul · (rd w) (rs1 w) (rs2 w))).or
          ((DivOp.ofInsn w).map (.div · (rd w) (rs1 w) (rs2 w)))))
  else if opcode w = 0b0001111 then (if funct3 w = 0 then some (.fence (rd w)) else none)
  else if opcode w = 0b1110011 then
    if funct3 w = 0 then (if w.extractLsb 31 21 = 0 && rs1 w = 0 && rd w = 0 then some .environment else none)
    else if funct3 w = 2 && rs1 w = 0 then (Counter.ofCsr (w.extractLsb 31 20)).map (.counter · (rd w))
    else none
  else none

end Fields

/-! ## Compressed instructions -/

section Compressed

variable (c : BitVec 16)

/-- One of `x8` to `x15`. -/
def creg (v : BitVec 3) : Reg := 0b01#2 ++ v

def crd : Reg := c.extractLsb 11 7
def crs2 : Reg := c.extractLsb 6 2
def crdLow : Reg := creg (c.extractLsb 4 2)
def crs1Low : Reg := creg (c.extractLsb 9 7)

/-- The immediate of six bits. -/
def cimm : Word := (c.extractLsb 12 12 ++ c.extractLsb 6 2).signExtend 32

def cimmAddi4spn : Word :=
  (c.extractLsb 10 7 ++ c.extractLsb 12 11 ++ c.extractLsb 5 5 ++ c.extractLsb 6 6 ++ 0b00#2).setWidth 32

def cimmLw : Word := (c.extractLsb 5 5 ++ c.extractLsb 12 10 ++ c.extractLsb 6 6 ++ 0b00#2).setWidth 32

def cimmLwsp : Word := (c.extractLsb 3 2 ++ c.extractLsb 12 12 ++ c.extractLsb 6 4 ++ 0b00#2).setWidth 32

def cimmSwsp : Word := (c.extractLsb 8 7 ++ c.extractLsb 12 9 ++ 0b00#2).setWidth 32

def cimmAddi16sp : Word :=
  (c.extractLsb 12 12 ++ c.extractLsb 4 3 ++ c.extractLsb 5 5 ++ c.extractLsb 2 2 ++ c.extractLsb 6 6 ++ 0b0000#4).signExtend 32

def cimmLui : Word := (c.extractLsb 12 12 ++ c.extractLsb 6 2 ++ 0#12).signExtend 32

def cimmJ : Word :=
  (c.extractLsb 12 12 ++ c.extractLsb 8 8 ++ c.extractLsb 10 9 ++ c.extractLsb 6 6 ++ c.extractLsb 7 7 ++ c.extractLsb 2 2 ++
    c.extractLsb 11 11 ++ c.extractLsb 5 3 ++ 0#1).signExtend 32

def cimmB : Word :=
  (c.extractLsb 12 12 ++ c.extractLsb 6 5 ++ c.extractLsb 2 2 ++ c.extractLsb 11 10 ++ c.extractLsb 4 3 ++ 0#1).signExtend 32

/-- Quadrant 0. -/
def decodeC0 : Option Instr :=
  let funct : BitVec 3 := c.extractLsb 15 13
  if funct = 0b000 then (if c.extractLsb 12 5 = 0#8 then none else some (.imm .addi (crdLow c) 2 (cimmAddi4spn c)))
  else if funct = 0b010 then some (.load .lw (crdLow c) (crs1Low c) (cimmLw c))
  else if funct = 0b110 then some (.store .sw (crs1Low c) (crdLow c) (cimmLw c))
  else none

/-- Quadrant 1. -/
def decodeC1 : Option Instr :=
  let funct : BitVec 3 := c.extractLsb 15 13
  if funct = 0b000 then some (.imm .addi (crd c) (crd c) (cimm c))
  else if funct = 0b001 then some (.jal 1 (cimmJ c))
  else if funct = 0b010 then some (.imm .addi (crd c) 0 (cimm c))
  else if funct = 0b011 then
    if c.extractLsb 12 12 = 0#1 && crs2 c = 0 then none
    else if crd c = 2 then some (.imm .addi 2 2 (cimmAddi16sp c))
    else some (.lui (crd c) (cimmLui c))
  else if funct = 0b100 then
    if c.extractLsb 11 10 = 0b10#2 then some (.imm .andi (crs1Low c) (crs1Low c) (cimm c))
    else if c.extractLsb 12 12 = 1#1 then none
    else if c.extractLsb 11 10 = 0b00#2 then some (.shiftImm .srl (crs1Low c) (crs1Low c) (crs2 c))
    else if c.extractLsb 11 10 = 0b01#2 then some (.shiftImm .sra (crs1Low c) (crs1Low c) (crs2 c))
    else
      let op : AluOp :=
        if c.extractLsb 6 5 = 0b00#2 then .sub else if c.extractLsb 6 5 = 0b01#2 then .xor
        else if c.extractLsb 6 5 = 0b10#2 then .or else .and
      some (.alu op (crs1Low c) (crs1Low c) (crdLow c))
  else if funct = 0b101 then some (.jal 0 (cimmJ c))
  else if funct = 0b110 then some (.branch .beq (crs1Low c) 0 (cimmB c))
  else some (.branch .bne (crs1Low c) 0 (cimmB c))

/-- Quadrant 2. -/
def decodeC2 : Option Instr :=
  let funct : BitVec 3 := c.extractLsb 15 13
  if funct = 0b000 then (if c.extractLsb 12 12 = 1#1 then none else some (.shiftImm .sll (crd c) (crd c) (crs2 c)))
  else if funct = 0b010 then (if crd c = 0 then none else some (.load .lw (crd c) 2 (cimmLwsp c)))
  else if funct = 0b100 then
    if c.extractLsb 12 12 = 0#1 then
      if crs2 c = 0 then (if crd c = 0 then none else some (.jalr 0 (crd c) 0))
      else some (.alu .add (crd c) 0 (crs2 c))
    else if crs2 c = 0 then (if crd c = 0 then some .environment else some (.jalr 1 (crd c) 0))
    else some (.alu .add (crd c) (crd c) (crs2 c))
  else if funct = 0b110 then some (.store .sw 2 (crs2 c) (cimmSwsp c))
  else none

/-- A compressed instruction is one of the base instructions. -/
def decodeC : Option Instr :=
  if c.extractLsb 1 0 = 0b00#2 then decodeC0 c
  else if c.extractLsb 1 0 = 0b01#2 then decodeC1 c
  else if c.extractLsb 1 0 = 0b10#2 then decodeC2 c
  else none

end Compressed

/-! ## An operation and its codes -/

theorem BranchOp.ofFunct3_eq_some {f : BitVec 3} {op : BranchOp} : ofFunct3 f = some op ↔ f = op.funct3 := by
  revert f
  cases op <;> decide

theorem LoadOp.ofFunct3_eq_some {f : BitVec 3} {op : LoadOp} : ofFunct3 f = some op ↔ f = op.funct3 := by
  revert f
  cases op <;> decide

theorem StoreOp.ofFunct3_eq_some {f : BitVec 3} {op : StoreOp} : ofFunct3 f = some op ↔ f = op.funct3 := by
  revert f
  cases op <;> decide

theorem ImmOp.ofFunct3_eq_some {f : BitVec 3} {op : ImmOp} : ofFunct3 f = some op ↔ f = op.funct3 := by
  revert f
  cases op <;> decide

theorem ShiftOp.ofFuncts_eq_some {f : BitVec 3} {g : BitVec 7} {op : ShiftOp} : ofFuncts f g = some op ↔ (f, g) = op.functs := by
  constructor
  · intro h
    simpa using List.find?_some h
  · intro h
    rw [ofFuncts, h]
    cases op <;> decide

theorem AluOp.ofFuncts_eq_some {f : BitVec 3} {g : BitVec 7} {op : AluOp} : ofFuncts f g = some op ↔ (f, g) = op.functs := by
  constructor
  · intro h
    simpa using List.find?_some h
  · intro h
    rw [ofFuncts, h]
    cases op <;> decide

/-! ## Targets are even -/

/-- Where a jump or a branch goes is an even distance away. -/
def Instr.evenTarget : Instr → Bool
  | .jal _ d => !d.getLsbD 0
  | .branch _ _ _ d => !d.getLsbD 0
  | _ => true

theorem getLsbD_zero_even {n : ℕ} (x : BitVec n) : ((x ++ 0#1).signExtend 32).getLsbD 0 = false := by
  rw [BitVec.getLsbD_signExtend, BitVec.getLsbD_append]
  rfl

theorem all_or {α : Type} (p : α → Bool) (o o' : Option α) (h : o.all p = true) (h' : o'.all p = true) : (o.or o').all p = true := by
  cases o with
  | none => exact h'
  | some x => exact h

theorem all_map {α β : Type} {p : β → Bool} {f : α → β} (h : ∀ x, p (f x) = true) (o : Option α) : (o.map f).all p = true := by
  cases o with
  | none => rfl
  | some x => exact h x

theorem all_ite {α : Type} {p : α → Bool} {c : Prop} [Decidable c] {o o' : Option α} (h : o.all p = true) (h' : o'.all p = true) :
    (if c then o else o').all p = true := by
  by_cases hc : c
  · rw [if_pos hc, h]
  · rw [if_neg hc, h']

theorem decode_evenTarget (w : Word) : (decode w).all Instr.evenTarget = true := by
  have hj : (immJ w).getLsbD 0 = false := getLsbD_zero_even _
  have hb : (immB w).getLsbD 0 = false := getLsbD_zero_even _
  unfold decode
  repeat' first
    | rfl
    | apply all_ite
    | apply all_or
    | exact all_map (fun _ => rfl) _
  · exact congrArg (!·) hj
  · refine all_map (fun op => ?_) _
    change (!(immB w).getLsbD 0) = true
    rw [hb]
    rfl

theorem decodeC_evenTarget (c : BitVec 16) : (decodeC c).all Instr.evenTarget = true := by
  have hj : (cimmJ c).getLsbD 0 = false := getLsbD_zero_even _
  have hb : (cimmB c).getLsbD 0 = false := getLsbD_zero_even _
  unfold decodeC decodeC0 decodeC1 decodeC2
  dsimp only
  repeat' first
    | rfl
    | apply all_ite
  · exact congrArg (!·) hj
  · exact congrArg (!·) hj
  · exact congrArg (!·) hb
  · exact congrArg (!·) hb

end Rv32
