import Mathlib.Tactic.FinCases
import Mathlib.Tactic.IntervalCases
import RiscvSoc.Cpu.DataUnit
import RiscvSoc.Cpu.DecoderSpec
/-!
# The datapath computes what the instructions say

For the flags of each kind of instruction: the arithmetic unit, a step of the shifter, and the
bytes that go to memory and come from there.
-/

namespace RiscvSoc.Cpu

open Rv32

namespace Core

variable {s : Core} {i : CoreIn}

/-! ## Loads and stores -/

/-- `mem_wordsize` for accesses of `size` bytes. -/
def wordsize (size : ℕ) : BitVec 2 := if size = 1 then 2 else if size = 2 then 1 else 0

theorem extract_toNat (a : Word32) : (a.extractLsb 1 0).toNat = a.toNat % 4 := by
  rw [BitVec.extractLsb_toNat]
  rfl

theorem offset_two (a : Word32) : offset 2 a = if a.getLsbD 1 then 2 else 0 := by
  rw [getLsbD_one, offset]
  rcases Nat.lt_or_ge (a.toNat % 4) 2 with h | h
  · rw [decide_eq_false (by omega), if_neg Bool.false_ne_true]
    omega
  · rw [decide_eq_true h, if_pos rfl]
    omega

theorem memRdataWord_byte (h : s.memWordsize = 2) :
    (s.memRdataWord i).extractLsb 7 0 = i.memRdata.extractLsb' (8 * offset 1 s.regOp1) 8 ∧
      s.memRdataWord i = (i.memRdata.extractLsb' (8 * offset 1 s.regOp1) 8).setWidth 32 := by
  have hw : s.memRdataWord i = (i.memRdata.extractLsb' (8 * offset 1 s.regOp1) 8).setWidth 32 := by
    unfold memRdataWord
    rw [h, if_neg (by decide), if_neg (by decide), if_pos rfl, extract_toNat, offset, Nat.div_one, Nat.mul_one]
  refine ⟨?_, hw⟩
  rw [hw]
  exact BitVec.eq_of_toNat_eq (by simp)

theorem memRdataWord_half (h : s.memWordsize = 1) :
    (s.memRdataWord i).extractLsb 15 0 = i.memRdata.extractLsb' (8 * offset 2 s.regOp1) 16 ∧
      s.memRdataWord i = (i.memRdata.extractLsb' (8 * offset 2 s.regOp1) 16).setWidth 32 := by
  have hw : s.memRdataWord i = (i.memRdata.extractLsb' (8 * offset 2 s.regOp1) 16).setWidth 32 := by
    unfold memRdataWord
    rw [h, if_neg (by decide), if_pos rfl, offset_two]
    cases s.regOp1.getLsbD 1 <;> rfl
  refine ⟨?_, hw⟩
  rw [hw]
  exact BitVec.eq_of_toNat_eq (by simp)

/-- The flags of the load `op`, as they are taken in with its address. -/
structure LoadFlags (op : LoadOp) (s : Core) : Prop where
  size : s.memWordsize = wordsize op.size
  isLu : s.latchedIsLu = (op = .lbu || op = .lhu || op = .lw : Bool)
  isLh : s.latchedIsLh = decide (op = .lh)
  isLb : s.latchedIsLb = decide (op = .lb)

/-- What a load writes to `reg_out`. -/
theorem LoadFlags.eval {op : LoadOp} (h : LoadFlags op s) (x : Word32) :
    (if s.latchedIsLu then s.memRdataWord i
      else if s.latchedIsLh then ((s.memRdataWord i).extractLsb 15 0).signExtend 32
      else if s.latchedIsLb then ((s.memRdataWord i).extractLsb 7 0).signExtend 32
      else x) = op.eval s.regOp1 i.memRdata := by
  rw [h.isLu, h.isLh, h.isLb]
  cases op with
  | lb => exact congrArg (BitVec.signExtend 32) (memRdataWord_byte h.size).1
  | lh => exact congrArg (BitVec.signExtend 32) (memRdataWord_half h.size).1
  | lw =>
    have h0 : s.memWordsize = 0 := h.size
    change s.memRdataWord i = i.memRdata
    rw [memRdataWord, if_pos h0]
  | lbu => exact (memRdataWord_byte h.size).2
  | lhu => exact (memRdataWord_half h.size).2

theorem lanesOf_byte {m : ℕ} (hm : m < 4) (x : Word32) (k : Fin 4) :
    lanesOf (0b0001 <<< m) (x.extractLsb 7 0 ++ x.extractLsb 7 0 ++ x.extractLsb 7 0 ++ x.extractLsb 7 0) k =
      if m ≤ k ∧ k < m + 1 then some (x.extractLsb' (8 * (k - m)) 8) else none := by
  have hx (y : BitVec 8) (k : Fin 4) : (y ++ y ++ y ++ y).extractLsb' (8 * k) 8 = y := by
    obtain ⟨h3, h2, h1, h0⟩ := Concat.extract_append4 y y y y
    fin_cases k
    exacts [h0, h1, h2, h3]
  unfold lanesOf
  rw [hx]
  interval_cases m <;> fin_cases k <;> rfl

theorem lanesOf_half (b : Bool) (x : Word32) (k : Fin 4) :
    lanesOf (if b then 0b1100 else 0b0011) (x.extractLsb 15 0 ++ x.extractLsb 15 0) k =
      if (if b then 2 else 0) ≤ (k : ℕ) ∧ (k : ℕ) < (if b then 2 else 0) + 2 then some (x.extractLsb' (8 * (k - if b then 2 else 0)) 8)
      else none := by
  have hlow (y : BitVec 16) (j : ℕ) (hj : j + 8 ≤ 16) : (y ++ y).extractLsb' j 8 = y.extractLsb' j 8 :=
    BitVec.extractLsb'_append_eq_of_add_le hj
  have hhigh (y : BitVec 16) (j : ℕ) : (y ++ y).extractLsb' (16 + j) 8 = y.extractLsb' j 8 := Concat.extract_append_hi y y j 8
  have hy (j : ℕ) (hj : j + 8 ≤ 16) : (x.extractLsb 15 0).extractLsb' j 8 = x.extractLsb' j 8 :=
    (Concat.extract_extract x j 0 hj).trans (by rw [Nat.zero_add])
  unfold lanesOf
  cases b <;> fin_cases k
  · exact congrArg some ((hlow _ 0 (by omega)).trans (hy 0 (by omega)))
  · exact congrArg some ((hlow _ 8 (by omega)).trans (hy 8 (by omega)))
  · rfl
  · rfl
  · rfl
  · rfl
  · exact congrArg some ((hhigh _ 0).trans (hy 0 (by omega)))
  · exact congrArg some ((hhigh _ 8).trans (hy 8 (by omega)))

/-- The lanes of a store at the address in `reg_op1` with the data in `reg_op2`. -/
theorem lanesOf_store {op : StoreOp} (h : s.memWordsize = wordsize op.size) :
    lanesOf (s.memLaWstrb i) (s.memLaWdata i) = op.lanes s.regOp1 s.regOp2 := by
  funext k
  unfold memLaWstrb memLaWdata
  rw [h]
  cases op with
  | sb =>
    rw [StoreOp.lanes, StoreOp.size, offset, Nat.div_one, Nat.mul_one, ← extract_toNat]
    exact lanesOf_byte (by rw [extract_toNat]; omega) s.regOp2 k
  | sh =>
    rw [StoreOp.lanes, StoreOp.size, offset_two]
    exact lanesOf_half (s.regOp1.getLsbD 1) s.regOp2 k
  | sw =>
    have h0 : offset 4 s.regOp1 = 0 := by rw [offset]; omega
    rw [StoreOp.lanes, StoreOp.size, h0]
    change lanesOf 0b1111 s.regOp2 k = _
    fin_cases k <;> rfl

theorem memLaWstrb_ne_zero {op : StoreOp} (h : s.memWordsize = wordsize op.size) : s.memLaWstrb i ≠ 0 := by
  unfold memLaWstrb
  rw [h]
  cases op with
  | sb =>
    have hm : (s.regOp1.extractLsb 1 0).toNat < 4 := by rw [extract_toNat]; omega
    change 0b0001#4 <<< (s.regOp1.extractLsb 1 0).toNat ≠ 0
    generalize (s.regOp1.extractLsb 1 0).toNat = m at hm
    interval_cases m <;> decide
  | sh =>
    change (if s.regOp1.getLsbD 1 then 0b1100#4 else 0b0011#4) ≠ 0
    cases s.regOp1.getLsbD 1 <;> decide
  | sw =>
    change 0b1111#4 ≠ 0
    decide

/-- An access is an error if its address is not aligned. -/
theorem misalignedData_eq {size : ℕ} (hsize : size = 1 ∨ size = 2 ∨ size = 4) (h : s.memWordsize = wordsize size)
    (hreq : (s.memDoRdata || s.memDoWdata) = true) : s.misalignedData = !aligned size s.regOp1 := by
  have h0 : s.regOp1.getLsbD 0 = decide (s.regOp1.toNat % 2 = 1) := by
    rw [BitVec.getLsbD, Nat.testBit_eq_decide_div_mod_eq]
    exact decide_eq_decide.2 (by omega)
  have h4 : s.regOp1.extractLsb 1 0 = 0 ↔ s.regOp1.toNat % 4 = 0 := by
    rw [← extract_toNat]
    exact BitVec.toNat_inj.symm
  rw [misalignedData, hreq, h, h0, aligned, Bool.true_and, ← decide_not]
  rcases hsize with rfl | rfl | rfl
  · simp [wordsize, Nat.mod_one]
  · simp [wordsize]
  · simpa [wordsize] using h4

/-! ## Arithmetic -/

/-- The classes have the flags of the second stage. -/
structure Classed (s : Core) : Prop where
  addSub : s.isLuiAuipcJalJalrAddiAddSub =
    (s.instrLui || s.instrAuipc || s.instrJal || s.instrJalr || s.instrAddi || s.instrAdd || s.instrSub)
  slt : s.isSltiBltSlt = (s.instrSlti || s.instrBlt || s.instrSlt)
  sltu : s.isSltiuBltuSltu = (s.instrSltiu || s.instrBltu || s.instrSltu)
  lu : s.isLbuLhuLw = (s.instrLbu || s.instrLhu || s.instrLw)
  compare : s.isCompare = (s.isBeqBneBltBgeBltuBgeu || s.instrSlti || s.instrSlt || s.instrSltiu || s.instrSltu)

section Alu

variable {k : Kind} (hf : Flags k s.toDecodeFirst s.toDecodeSecond) (hc : Classed s)

include hf in
theorem aluAddSub_eq (h : k ≠ .alu .sub) : s.aluAddSub = s.regOp1 + s.regOp2 := by
  have hsub : s.instrSub = false := (hf.alu .sub).trans (decide_eq_false h)
  rw [aluAddSub, hsub, if_neg Bool.false_ne_true]

include hf hc in
/-- The condition of a branch. -/
theorem aluOut0_branch {op : BranchOp} (h : k = .branch op) : s.aluOut0 i = op.taken s.regOp1 s.regOp2 := by
  subst h
  have hbeq : s.instrBeq = decide (op = .beq) := (hf.branch .beq).trans (by simp)
  have hbne : s.instrBne = decide (op = .bne) := (hf.branch .bne).trans (by simp)
  have hblt : s.instrBlt = decide (op = .blt) := (hf.branch .blt).trans (by simp)
  have hbge : s.instrBge = decide (op = .bge) := (hf.branch .bge).trans (by simp)
  have hbltu : s.instrBltu = decide (op = .bltu) := (hf.branch .bltu).trans (by simp)
  have hbgeu : s.instrBgeu = decide (op = .bgeu) := (hf.branch .bgeu).trans (by simp)
  have himm (o : ImmOp) : s.instrImm o = false := (hf.imm o).trans (by simp)
  have halu (o : AluOp) : s.instrAlu o = false := (hf.alu o).trans (by simp)
  have hslt : s.isSltiBltSlt = decide (op = .blt) := by
    rw [hc.slt, hblt, show s.instrSlti = false from himm .slti, show s.instrSlt = false from halu .slt]
    simp
  have hsltu : s.isSltiuBltuSltu = decide (op = .bltu) := by
    rw [hc.sltu, hbltu, show s.instrSltiu = false from himm .sltiu, show s.instrSltu = false from halu .sltu]
    simp
  unfold aluOut0
  rw [hbeq, hbne, hbge, hbgeu, hslt, hsltu]
  cases op with
  | beq | blt | bltu => rfl
  | bne => exact (decide_not).symm
  | bge => exact (decide_not).symm.trans (decide_eq_decide.2 not_lt)
  | bgeu => exact (decide_not).symm.trans (decide_eq_decide.2 not_lt)

/-- The kinds whose result is a sum. -/
def sums (k : Kind) : Bool := k = .lui || k = .auipc || k = .jal || k = .jalr || k = .imm .addi || k = .alu .add

/-- The kinds whose result is the outcome of a comparison. -/
def compares (k : Kind) : Bool := k = .imm .slti || k = .imm .sltiu || k = .alu .slt || k = .alu .sltu

include hf hc in
theorem isAddSub_eq : s.isLuiAuipcJalJalrAddiAddSub = (sums k || decide (k = .alu .sub)) := by
  rw [hc.addSub, show s.instrLui = _ from hf.lui, show s.instrAuipc = _ from hf.auipc, show s.instrJal = _ from hf.jal,
    show s.instrJalr = _ from hf.jalr, show s.instrAddi = _ from hf.imm .addi, show s.instrAdd = _ from hf.alu .add,
    show s.instrSub = _ from hf.alu .sub]
  rfl

include hf hc in
theorem aluOut_sum (h : sums k = true) : s.aluOut i = s.regOp1 + s.regOp2 := by
  have hsub : k ≠ .alu .sub := by
    rintro rfl
    cases h
  rw [aluOut, isAddSub_eq hf hc, h, Bool.true_or, if_pos rfl, aluAddSub_eq hf hsub]

include hf hc in
theorem aluOut_sub (h : k = .alu .sub) : s.aluOut i = s.regOp1 - s.regOp2 := by
  have hsub : s.instrSub = true := (hf.alu .sub).trans (decide_eq_true h)
  rw [aluOut, isAddSub_eq hf hc, decide_eq_true h, Bool.or_true, if_pos rfl, aluAddSub, hsub, if_pos rfl]

include hf hc in
theorem isCompare_eq (h : k ≠ .pcpi) : s.isCompare = (decide (k.cls = .branch) || compares k) := by
  rw [hc.compare, show s.isBeqBneBltBgeBltuBgeu = _ from hf.isBranch h, show s.instrSlti = _ from hf.imm .slti,
    show s.instrSlt = _ from hf.alu .slt, show s.instrSltiu = _ from hf.imm .sltiu, show s.instrSltu = _ from hf.alu .sltu]
  unfold compares
  grind

theorem flag_eq (b : Bool) : (BitVec.ofBool b).setWidth 32 = flag b := by cases b <;> rfl

include hf hc in
theorem aluOut_compare (h : compares k = true) :
    s.aluOut i = flag (if k = .imm .slti ∨ k = .alu .slt then s.aluLts else s.aluLtu) := by
  have hk : k = .imm .slti ∨ k = .imm .sltiu ∨ k = .alu .slt ∨ k = .alu .sltu := by
    simpa [compares, or_assoc] using h
  have hadd : s.isLuiAuipcJalJalrAddiAddSub = false := by
    rw [isAddSub_eq hf hc]
    rcases hk with rfl | rfl | rfl | rfl <;> rfl
  have hcmp : s.isCompare = true := by
    rw [isCompare_eq hf hc (by rcases hk with rfl | rfl | rfl | rfl <;> decide), h, Bool.or_true]
  have hbranch (o : BranchOp) : s.instrBranch o = false :=
    (hf.branch o).trans (decide_eq_false (by rcases hk with rfl | rfl | rfl | rfl <;> simp))
  have hslt : s.isSltiBltSlt = decide (k = .imm .slti ∨ k = .alu .slt) := by
    rw [hc.slt, show s.instrBlt = false from hbranch .blt, show s.instrSlti = _ from hf.imm .slti, show s.instrSlt = _ from hf.alu .slt]
    simp
  have hsltu : s.isSltiuBltuSltu = !decide (k = .imm .slti ∨ k = .alu .slt) := by
    rw [hc.sltu, show s.instrBltu = false from hbranch .bltu, show s.instrSltiu = _ from hf.imm .sltiu, show s.instrSltu = _ from hf.alu .sltu]
    rcases hk with rfl | rfl | rfl | rfl <;> rfl
  have h0 : s.aluOut0 i = if k = .imm .slti ∨ k = .alu .slt then s.aluLts else s.aluLtu := by
    unfold aluOut0
    rw [show s.instrBeq = false from hbranch .beq, show s.instrBne = false from hbranch .bne, show s.instrBge = false from hbranch .bge,
      show s.instrBgeu = false from hbranch .bgeu, hslt, hsltu]
    by_cases hlt : k = .imm .slti ∨ k = .alu .slt <;> simp [hlt]
  rw [aluOut, hadd, hcmp, if_neg Bool.false_ne_true, if_pos rfl, h0, flag_eq]

include hf hc in
theorem aluOut_logic (h : k = .imm .xori ∨ k = .alu .xor ∨ k = .imm .ori ∨ k = .alu .or ∨ k = .imm .andi ∨ k = .alu .and) :
    s.aluOut i = if k = .imm .xori ∨ k = .alu .xor then s.regOp1 ^^^ s.regOp2
      else if k = .imm .ori ∨ k = .alu .or then s.regOp1 ||| s.regOp2 else s.regOp1 &&& s.regOp2 := by
  unfold aluOut
  rw [isAddSub_eq hf hc, isCompare_eq hf hc (by rcases h with rfl | rfl | rfl | rfl | rfl | rfl <;> decide),
    show s.instrXori = _ from hf.imm .xori, show s.instrXor = _ from hf.alu .xor, show s.instrOri = _ from hf.imm .ori,
    show s.instrOr = _ from hf.alu .or, show s.instrAndi = _ from hf.imm .andi, show s.instrAnd = _ from hf.alu .and]
  rcases h with rfl | rfl | rfl | rfl | rfl | rfl <;> rfl

include hf hc in
theorem aluOut_imm {op : ImmOp} (h : k = .imm op) : s.aluOut i = op.eval s.regOp1 s.regOp2 := by
  subst h
  cases op with
  | addi => exact aluOut_sum hf hc rfl
  | slti => exact aluOut_compare hf hc rfl
  | sltiu => exact aluOut_compare hf hc rfl
  | xori => exact aluOut_logic hf hc (by simp)
  | ori => exact aluOut_logic hf hc (by simp)
  | andi => exact aluOut_logic hf hc (by simp)

include hf hc in
theorem aluOut_alu {op : AluOp} (h : k = .alu op) : s.aluOut i = op.eval s.regOp1 s.regOp2 := by
  subst h
  cases op with
  | add => exact aluOut_sum hf hc rfl
  | sub => exact aluOut_sub hf hc rfl
  | slt => exact aluOut_compare hf hc rfl
  | sltu => exact aluOut_compare hf hc rfl
  | xor => exact aluOut_logic hf hc (by simp)
  | or => exact aluOut_logic hf hc (by simp)
  | and => exact aluOut_logic hf hc (by simp)

/-! ## Shifts -/

include hf in
theorem shiftBy_eq {op : ShiftOp} (h : k = .shiftImm op ∨ k = .shift op) (n : ℕ) : s.shiftBy n = op.eval s.regOp1 n := by
  unfold shiftBy
  rw [show s.instrSlli = _ from hf.shiftImm .sll, show s.instrSll = _ from hf.shift .sll, show s.instrSrli = _ from hf.shiftImm .srl,
    show s.instrSrl = _ from hf.shift .srl, show s.instrSrai = _ from hf.shiftImm .sra, show s.instrSra = _ from hf.shift .sra]
  rcases h with rfl | rfl <;> cases op <;> rfl

end Alu

end Core

end RiscvSoc.Cpu
