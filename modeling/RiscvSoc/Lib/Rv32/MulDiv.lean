import Mathlib.Data.BitVec
/-!
# The instructions of the M extension

What they write to `rd`, on the integers that the registers stand for.
-/

namespace Rv32

inductive MulOp
  | mul
  | mulh
  | mulhsu
  | mulhu
  deriving DecidableEq, Repr

inductive DivOp
  | div
  | divu
  | rem
  | remu
  deriving DecidableEq, Repr

/-- The opcode OP with `funct7 = 1`. -/
def isMulDiv (insn : BitVec 32) : Bool := insn.extractLsb' 0 7 = 0b0110011#7 && insn.extractLsb' 25 7 = 1#7

namespace MulOp

variable (op : MulOp)

/-- `mulh` and `mulhsu` read `rs1` as signed. -/
def signed1 : Bool := op = .mulh || op = .mulhsu

/-- `mulh` reads `rs2` as signed. -/
def signed2 : Bool := op = .mulh

/-- All but `mul` give the upper word of the product. -/
def upper : Bool := op ≠ .mul

def funct3 : BitVec 3 :=
  match op with
  | .mul => 0
  | .mulh => 1
  | .mulhsu => 2
  | .mulhu => 3

def ofInsn (insn : BitVec 32) : Option MulOp :=
  if isMulDiv insn then [mul, mulh, mulhsu, mulhu].find? fun op => insn.extractLsb' 12 3 = op.funct3 else none

theorem ofInsn_eq_some {insn : BitVec 32} {op : MulOp} :
    ofInsn insn = some op ↔ isMulDiv insn = true ∧ insn.extractLsb' 12 3 = op.funct3 := by
  unfold ofInsn
  split
  · rename_i h
    simp only [h, true_and]
    generalize insn.extractLsb' 12 3 = f
    revert f
    cases op <;> decide
  · rename_i h
    simp [h]

/-- The word, lower or upper, of the product of two integers. -/
def eval (x y : BitVec 32) : BitVec 32 :=
  let product : BitVec 64 := BitVec.ofInt 64
    ((if op.signed1 then x.toInt else x.toNat) * (if op.signed2 then y.toInt else y.toNat))
  if op.upper then product.extractLsb' 32 32 else product.extractLsb' 0 32

end MulOp

namespace DivOp

variable (op : DivOp)

def funct3 : BitVec 3 :=
  match op with
  | .div => 4
  | .divu => 5
  | .rem => 6
  | .remu => 7

def ofInsn (insn : BitVec 32) : Option DivOp :=
  if isMulDiv insn then [div, divu, rem, remu].find? fun op => insn.extractLsb' 12 3 = op.funct3 else none

theorem ofInsn_eq_some {insn : BitVec 32} {op : DivOp} :
    ofInsn insn = some op ↔ isMulDiv insn = true ∧ insn.extractLsb' 12 3 = op.funct3 := by
  unfold ofInsn
  split
  · rename_i h
    simp only [h, true_and]
    generalize insn.extractLsb' 12 3 = f
    revert f
    cases op <;> decide
  · rename_i h
    simp [h]

/-- Quotients round towards zero and remainders have the sign of the dividend. Dividing by
zero gives all ones, and the dividend as the remainder; the one quotient that is out of range
wraps. -/
def eval (x y : BitVec 32) : BitVec 32 :=
  match op with
  | .div => if y = 0 then -1 else BitVec.ofInt 32 (x.toInt.tdiv y.toInt)
  | .divu => if y = 0 then -1 else BitVec.ofNat 32 (x.toNat / y.toNat)
  | .rem => if y = 0 then x else BitVec.ofInt 32 (x.toInt.tmod y.toInt)
  | .remu => if y = 0 then x else BitVec.ofNat 32 (x.toNat % y.toNat)

end DivOp

/-- Every code is one of the two kinds. -/
theorem isMulDiv_cases {insn : BitVec 32} (h : isMulDiv insn = true) :
    (∃ op, MulOp.ofInsn insn = some op) ∨ ∃ op, DivOp.ofInsn insn = some op := by
  simp only [MulOp.ofInsn_eq_some, DivOp.ofInsn_eq_some, h, true_and]
  generalize insn.extractLsb' 12 3 = f
  have hall : ∀ f : BitVec 3, (∃ op ∈ [MulOp.mul, .mulh, .mulhsu, .mulhu], f = op.funct3) ∨
      ∃ op ∈ [DivOp.div, .divu, .rem, .remu], f = op.funct3 := by decide
  rcases hall f with ⟨op, -, ho⟩ | ⟨op, -, ho⟩
  · exact .inl ⟨op, ho⟩
  · exact .inr ⟨op, ho⟩

/-- And of one only. -/
theorem ofInsn_exclusive {insn : BitVec 32} {op : MulOp} {op' : DivOp} (h : MulOp.ofInsn insn = some op) :
    DivOp.ofInsn insn ≠ some op' := by
  rw [MulOp.ofInsn_eq_some] at h
  rw [ne_eq, DivOp.ofInsn_eq_some, h.2]
  rintro ⟨-, hf⟩
  revert hf
  cases op <;> cases op' <;> decide

end Rv32
