import RiscvSoc.Lib.Rv32.Instr
/-!
# What the operations compute

Arithmetic, the conditions of branches, and what a load or a store does with the word of
memory that has its address.
-/

namespace Rv32

def BranchOp.taken (op : BranchOp) (x y : Word) : Bool :=
  match op with
  | beq => x = y
  | bne => x ≠ y
  | blt => x.toInt < y.toInt
  | bge => y.toInt ≤ x.toInt
  | bltu => x.toNat < y.toNat
  | bgeu => y.toNat ≤ x.toNat

def flag (b : Bool) : Word := if b then 1 else 0

def ImmOp.eval (op : ImmOp) (x y : Word) : Word :=
  match op with
  | addi => x + y
  | slti => flag (x.toInt < y.toInt)
  | sltiu => flag (x.toNat < y.toNat)
  | xori => x ^^^ y
  | ori => x ||| y
  | andi => x &&& y

def AluOp.eval (op : AluOp) (x y : Word) : Word :=
  match op with
  | add => x + y
  | sub => x - y
  | slt => flag (x.toInt < y.toInt)
  | sltu => flag (x.toNat < y.toNat)
  | xor => x ^^^ y
  | or => x ||| y
  | and => x &&& y

def ShiftOp.eval (op : ShiftOp) (x : Word) (n : ℕ) : Word :=
  match op with
  | sll => x <<< n
  | srl => x >>> n
  | sra => x.sshiftRight n

/-- A shift in two parts. -/
theorem ShiftOp.eval_add (op : ShiftOp) (x : Word) (m n : ℕ) : op.eval (op.eval x m) n = op.eval x (m + n) := by
  cases op with
  | sll => exact (BitVec.shiftLeft_add x m n).symm
  | srl => exact (BitVec.shiftRight_add x m n).symm
  | sra => exact (BitVec.sshiftRight_add).symm

theorem ShiftOp.eval_zero (op : ShiftOp) (x : Word) : op.eval x 0 = x := by
  cases op with
  | sll => exact BitVec.shiftLeft_zero x
  | srl => exact BitVec.ushiftRight_zero x
  | sra => exact BitVec.sshiftRight_zero

/-! ## Memory -/

/-- The word of memory that has the address `a`. -/
def wordAddr (a : Word) : Word := a.extractLsb 31 2 ++ 0b00#2

theorem getLsbD_one (a : Word) : a.getLsbD 1 = decide (2 ≤ a.toNat % 4) := by
  rw [BitVec.getLsbD, Nat.testBit_eq_decide_div_mod_eq]
  exact decide_eq_decide.2 (by omega)

theorem toNat_wordAddr (a : Word) : (wordAddr a).toNat = a.toNat / 4 * 4 := by
  have h := a.isLt
  rw [wordAddr, BitVec.toNat_append, ← Nat.shiftLeft_add_eq_or_of_lt (by decide), Nat.shiftLeft_eq, BitVec.extractLsb_toNat,
    Nat.shiftRight_eq_div_pow]
  simp only [BitVec.toNat_ofNat]
  omega

theorem wordAddr_eq_iff {a b : Word} : wordAddr a = wordAddr b ↔ a.toNat / 4 = b.toNat / 4 := by
  rw [← BitVec.toNat_inj, toNat_wordAddr, toNat_wordAddr]
  omega

theorem toNat_add_two (a : Word) : (a + 2).toNat = (a.toNat + 2) % 2 ^ 32 := BitVec.toNat_add ..

theorem toNat_add_four (a : Word) : (a + 4).toNat = (a.toNat + 4) % 2 ^ 32 := BitVec.toNat_add ..

section Halves

variable {a : Word}

theorem getLsbD_one_add_two : (a + 2).getLsbD 1 = !a.getLsbD 1 := by
  have h := a.isLt
  rw [getLsbD_one, getLsbD_one, ← decide_not, toNat_add_two]
  exact decide_eq_decide.2 (by omega)

theorem getLsbD_one_add_four : (a + 4).getLsbD 1 = a.getLsbD 1 := by
  have h := a.isLt
  rw [getLsbD_one, getLsbD_one, toNat_add_four]
  exact decide_eq_decide.2 (by omega)

theorem wordAddr_add_two (h : a.getLsbD 1 = false) : wordAddr (a + 2) = wordAddr a := by
  have ha := a.isLt
  rw [getLsbD_one, decide_eq_false_iff_not] at h
  rw [wordAddr_eq_iff, toNat_add_two]
  omega

theorem wordAddr_add_four (h : a.getLsbD 1 = true) : wordAddr (a + 4) = wordAddr (a + 2) := by
  have ha := a.isLt
  rw [getLsbD_one, decide_eq_true_eq] at h
  rw [wordAddr_eq_iff, toNat_add_two, toNat_add_four]
  omega

/-- The word behind that of the upper half `a`. -/
theorem wordAddr_succ (h : a.getLsbD 1 = true) : (a.extractLsb 31 2 + 1#30) ++ 0b00#2 = wordAddr (a + 2) := by
  have ha := a.isLt
  rw [getLsbD_one, decide_eq_true_eq] at h
  apply BitVec.eq_of_toNat_eq
  rw [toNat_wordAddr, toNat_add_two, BitVec.toNat_append, ← Nat.shiftLeft_add_eq_or_of_lt (by decide), Nat.shiftLeft_eq,
    BitVec.toNat_add, BitVec.extractLsb_toNat, Nat.shiftRight_eq_div_pow]
  simp only [BitVec.toNat_ofNat]
  omega

end Halves

/-- The first of `size` bytes in their word; an address that is not aligned is rounded down. -/
def offset (size : ℕ) (a : Word) : ℕ := a.toNat % 4 / size * size

def aligned (size : ℕ) (a : Word) : Bool := a.toNat % size = 0

/-- A transaction on the bus: `lanes` are the bytes that are written. -/
inductive Access
  | read (addr data : Word)
  | write (addr : Word) (lanes : Fin 4 → Option (BitVec 8))

def LoadOp.size : LoadOp → ℕ
  | lb | lbu => 1
  | lh | lhu => 2
  | lw => 4

/-- What is loaded from the address `a` in the word `w`. -/
def LoadOp.eval (op : LoadOp) (a w : Word) : Word :=
  match op with
  | lb => (w.extractLsb' (8 * offset 1 a) 8).signExtend 32
  | lbu => (w.extractLsb' (8 * offset 1 a) 8).setWidth 32
  | lh => (w.extractLsb' (8 * offset 2 a) 16).signExtend 32
  | lhu => (w.extractLsb' (8 * offset 2 a) 16).setWidth 32
  | lw => w

def StoreOp.size : StoreOp → ℕ
  | sb => 1
  | sh => 2
  | sw => 4

/-- The bytes that a store of `x` to the address `a` writes. -/
def StoreOp.lanes (op : StoreOp) (a x : Word) (k : Fin 4) : Option (BitVec 8) :=
  if offset op.size a ≤ k ∧ k < offset op.size a + op.size then some (x.extractLsb' (8 * (k - offset op.size a)) 8) else none

end Rv32
