import RiscvSoc.Cpu.Decoder
import RiscvSoc.Cpu.Insn
import RiscvSoc.Lib.Concat
/-!
# The decoder tells the instructions apart

A full word gets its class from the opcode and a compressed one from its quadrant and
`funct`; from there the second stage reads both alike.
-/

namespace RiscvSoc.Cpu

open Rv32

/-! ## The flags as functions of the operation -/

namespace DecodeSecond

variable (d : DecodeSecond)

def instrBranch : BranchOp → Bool
  | .beq => d.instrBeq
  | .bne => d.instrBne
  | .blt => d.instrBlt
  | .bge => d.instrBge
  | .bltu => d.instrBltu
  | .bgeu => d.instrBgeu

def instrLoad : LoadOp → Bool
  | .lb => d.instrLb
  | .lh => d.instrLh
  | .lw => d.instrLw
  | .lbu => d.instrLbu
  | .lhu => d.instrLhu

def instrStore : StoreOp → Bool
  | .sb => d.instrSb
  | .sh => d.instrSh
  | .sw => d.instrSw

def instrImm : ImmOp → Bool
  | .addi => d.instrAddi
  | .slti => d.instrSlti
  | .sltiu => d.instrSltiu
  | .xori => d.instrXori
  | .ori => d.instrOri
  | .andi => d.instrAndi

def instrShiftImm : ShiftOp → Bool
  | .sll => d.instrSlli
  | .srl => d.instrSrli
  | .sra => d.instrSrai

def instrAlu : AluOp → Bool
  | .add => d.instrAdd
  | .sub => d.instrSub
  | .slt => d.instrSlt
  | .sltu => d.instrSltu
  | .xor => d.instrXor
  | .or => d.instrOr
  | .and => d.instrAnd

def instrShift : ShiftOp → Bool
  | .sll => d.instrSll
  | .srl => d.instrSrl
  | .sra => d.instrSra

def instrCounter : Counter → Bool
  | .cycle => d.instrRdcycle
  | .cycleh => d.instrRdcycleh
  | .instret => d.instrRdinstr
  | .instreth => d.instrRdinstrh

end DecodeSecond

/-- The classes of the first stage; `system` is without a flag for a class. -/
inductive Class
  | lui
  | auipc
  | jal
  | jalr
  | branch
  | load
  | store
  | imm
  | reg
  | system
  deriving DecidableEq

namespace Kind

def cls : Kind → Class
  | lui => .lui
  | auipc => .auipc
  | jal => .jal
  | jalr => .jalr
  | branch _ => .branch
  | load _ => .load
  | store _ => .store
  | imm _ | shiftImm _ => .imm
  | alu _ | shift _ => .reg
  | _ => .system

variable (k : Kind)

def isImm : Bool := k = .imm .addi || k = .imm .slti || k = .imm .sltiu || k = .imm .xori || k = .imm .ori || k = .imm .andi

def isShiftImm : Bool := k = .shiftImm .sll || k = .shiftImm .srl || k = .shiftImm .sra

def isShift : Bool := k = .shift .sll || k = .shift .srl || k = .shift .sra

end Kind

/-- The flags that come with a class of the first stage. -/
structure ClassFlags (k : Kind) (f : DecodeFirst) (d : DecodeSecond) : Prop where
  lui : f.instrLui = decide (k = .lui)
  auipc : f.instrAuipc = decide (k = .auipc)
  jal : f.instrJal = decide (k = .jal)
  jalr : f.instrJalr = decide (k = .jalr)
  isBranch : k ≠ .pcpi → f.isBeqBneBltBgeBltuBgeu = decide (k.cls = .branch)
  isLoad : k ≠ .pcpi → f.isLbLhLwLbuLhu = decide (k.cls = .load)
  isStore : k ≠ .pcpi → f.isSbShSw = decide (k.cls = .store)
  branch : ∀ op, d.instrBranch op = decide (k = .branch op)
  load : ∀ op, d.instrLoad op = decide (k = .load op)
  store : ∀ op, d.instrStore op = decide (k = .store op)
  imm : ∀ op, d.instrImm op = decide (k = .imm op)
  shiftImm : ∀ op, d.instrShiftImm op = decide (k = .shiftImm op)
  alu : ∀ op, d.instrAlu op = decide (k = .alu op)
  shift : ∀ op, d.instrShift op = decide (k = .shift op)
  isShiftImm : d.isSlliSrliSrai = k.isShiftImm
  isShift : d.isSllSrlSra = k.isShift
  isJalrImm : d.isJalrAddiSltiSltiuXoriOriAndi = (decide (k = .jalr) || k.isImm)

/-- The flags that are read off the word alone. -/
structure SystemFlags (k : Kind) (f : DecodeFirst) (d : DecodeSecond) : Prop where
  retirq : f.instrRetirq = decide (k = .retirq)
  waitirq : f.instrWaitirq = decide (k = .waitirq)
  counter : ∀ c, d.instrCounter c = decide (k = .counter c)
  environment : d.instrEcallEbreak = decide (k = .environment)
  fence : d.instrFence = decide (k = .fence)
  getq : d.instrGetq = decide (k = .getq)
  setq : d.instrSetq = decide (k = .setq)
  maskirq : d.instrMaskirq = decide (k = .maskirq)
  timer : d.instrTimer = decide (k = .timer)

/-- The flags are those of an instruction of kind `k`. -/
structure Flags (k : Kind) (f : DecodeFirst) (d : DecodeSecond) : Prop extends ClassFlags k f d, SystemFlags k f d

/-! ## The class of the first stage -/

structure DecodeFirst.Is (f : DecodeFirst) (c : Class) : Prop where
  lui : f.instrLui = decide (c = .lui)
  auipc : f.instrAuipc = decide (c = .auipc)
  jal : f.instrJal = decide (c = .jal)
  jalr : f.instrJalr = decide (c = .jalr)
  branch : f.isBeqBneBltBgeBltuBgeu = decide (c = .branch)
  load : f.isLbLhLwLbuLhu = decide (c = .load)
  store : f.isSbShSw = decide (c = .store)
  imm : f.isAluRegImm = decide (c = .imm)
  reg : f.isAluRegReg = decide (c = .reg)

namespace Class

/-- The kind within a class. -/
def kind (f : BitVec 3) (g : BitVec 7) : Class → Kind
  | lui => .lui
  | auipc => .auipc
  | jal => .jal
  | jalr => .jalr
  | branch => ((BranchOp.ofFunct3 f).map .branch).getD .pcpi
  | load => ((LoadOp.ofFunct3 f).map .load).getD .pcpi
  | store => ((StoreOp.ofFunct3 f).map .store).getD .pcpi
  | imm => (((ImmOp.ofFunct3 f).map .imm).or ((ShiftOp.ofFuncts f g).map .shiftImm)).getD .pcpi
  | reg => (((AluOp.ofFuncts f g).map .alu).or ((ShiftOp.ofFuncts f g).map .shift)).getD .pcpi
  | system => .pcpi

variable {c : Class} {f : BitVec 3} {g : BitVec 7}

theorem getD_map_eq_iff {α β : Type} {o : Option α} {k : α → β} {d y : β} :
    (o.map k).getD d = y ↔ (∃ x, o = some x ∧ k x = y) ∨ (o = none ∧ d = y) := by
  cases o <;> simp

theorem kind_eq_lui : c.kind f g = .lui ↔ c = .lui := by
  cases c <;> simp [kind, getD_map_eq_iff]

theorem kind_eq_auipc : c.kind f g = .auipc ↔ c = .auipc := by
  cases c <;> simp [kind, getD_map_eq_iff]

theorem kind_eq_jal : c.kind f g = .jal ↔ c = .jal := by
  cases c <;> simp [kind, getD_map_eq_iff]

theorem kind_eq_jalr : c.kind f g = .jalr ↔ c = .jalr := by
  cases c <;> simp [kind, getD_map_eq_iff]

theorem kind_eq_branch {op : BranchOp} : c.kind f g = .branch op ↔ c = .branch ∧ f = op.funct3 := by
  cases c <;> simp [kind, getD_map_eq_iff, BranchOp.ofFunct3_eq_some]

theorem kind_eq_load {op : LoadOp} : c.kind f g = .load op ↔ c = .load ∧ f = op.funct3 := by
  cases c <;> simp [kind, getD_map_eq_iff, LoadOp.ofFunct3_eq_some]

theorem kind_eq_store {op : StoreOp} : c.kind f g = .store op ↔ c = .store ∧ f = op.funct3 := by
  cases c <;> simp [kind, getD_map_eq_iff, StoreOp.ofFunct3_eq_some]

theorem kind_eq_imm {op : ImmOp} : c.kind f g = .imm op ↔ c = .imm ∧ f = op.funct3 := by
  cases c <;> simp [kind, getD_map_eq_iff, ImmOp.ofFunct3_eq_some]

theorem imm_of_shift {op : ShiftOp} (h : (f, g) = op.functs) : ImmOp.ofFunct3 f = none := by
  obtain ⟨rfl, -⟩ := Prod.ext_iff.1 h
  cases op <;> decide

theorem alu_of_shift {op : ShiftOp} (h : (f, g) = op.functs) : AluOp.ofFuncts f g = none := by
  obtain ⟨rfl, rfl⟩ := Prod.ext_iff.1 h
  cases op <;> decide

theorem kind_eq_shiftImm {op : ShiftOp} : c.kind f g = .shiftImm op ↔ c = .imm ∧ (f, g) = op.functs := by
  cases c <;> simp [kind, getD_map_eq_iff, ShiftOp.ofFuncts_eq_some]
  exact imm_of_shift

theorem kind_eq_alu {op : AluOp} : c.kind f g = .alu op ↔ c = .reg ∧ (f, g) = op.functs := by
  cases c <;> simp [kind, getD_map_eq_iff, AluOp.ofFuncts_eq_some]

theorem kind_eq_shift {op : ShiftOp} : c.kind f g = .shift op ↔ c = .reg ∧ (f, g) = op.functs := by
  cases c <;> simp [kind, getD_map_eq_iff, ShiftOp.ofFuncts_eq_some]
  exact alu_of_shift

theorem cls_kind (h : c.kind f g ≠ .pcpi) : (c.kind f g).cls = c := by
  cases c with
  | branch => cases ho : BranchOp.ofFunct3 f <;> simp_all [kind, Kind.cls]
  | load => cases ho : LoadOp.ofFunct3 f <;> simp_all [kind, Kind.cls]
  | store => cases ho : StoreOp.ofFunct3 f <;> simp_all [kind, Kind.cls]
  | imm => cases ho : ImmOp.ofFunct3 f <;> cases hs : ShiftOp.ofFuncts f g <;> simp_all [kind, Kind.cls]
  | reg => cases ho : AluOp.ofFuncts f g <;> cases hs : ShiftOp.ofFuncts f g <;> simp_all [kind, Kind.cls]
  | _ => rfl

/-- No class has a kind of the core's own. -/
theorem kind_ne {k : Kind} (h : k.cls = .system) (hk : k ≠ .pcpi) : c.kind f g ≠ k := by
  rintro rfl
  have hc := cls_kind hk
  rw [h] at hc
  subst hc
  exact hk rfl

end Class

/-- The second stage reads the instructions of a class off `funct3` and `funct7`. -/
theorem classFlags_of_class {f : DecodeFirst} {q x : Word32} {c : Class} (hf : f.Is c) :
    ClassFlags (c.kind (funct3 q) (funct7 q)) f (.ofWord q f x) where
  lui := by simp [hf.lui, Class.kind_eq_lui]
  auipc := by simp [hf.auipc, Class.kind_eq_auipc]
  jal := by simp [hf.jal, Class.kind_eq_jal]
  jalr := by simp [hf.jalr, Class.kind_eq_jalr]
  isBranch h := by rw [hf.branch, Class.cls_kind h]
  isLoad h := by rw [hf.load, Class.cls_kind h]
  isStore h := by rw [hf.store, Class.cls_kind h]
  branch op := by
    cases op <;> simp [DecodeSecond.instrBranch, DecodeSecond.ofWord, hf.branch, Class.kind_eq_branch, funct3, BranchOp.funct3]
  load op := by
    cases op <;> simp [DecodeSecond.instrLoad, DecodeSecond.ofWord, hf.load, Class.kind_eq_load, funct3, LoadOp.funct3]
  store op := by
    cases op <;> simp [DecodeSecond.instrStore, DecodeSecond.ofWord, hf.store, Class.kind_eq_store, funct3, StoreOp.funct3]
  imm op := by
    cases op <;> simp [DecodeSecond.instrImm, DecodeSecond.ofWord, hf.imm, Class.kind_eq_imm, funct3, ImmOp.funct3]
  shiftImm op := by
    cases op <;> simp [DecodeSecond.instrShiftImm, DecodeSecond.ofWord, hf.imm, Class.kind_eq_shiftImm, funct3, funct7,
      ShiftOp.functs, Bool.and_assoc]
  alu op := by
    cases op <;> simp [DecodeSecond.instrAlu, DecodeSecond.ofWord, hf.reg, Class.kind_eq_alu, funct3, funct7,
      AluOp.functs, Bool.and_assoc]
  shift op := by
    cases op <;> simp [DecodeSecond.instrShift, DecodeSecond.ofWord, hf.reg, Class.kind_eq_shift, funct3, funct7,
      ShiftOp.functs, Bool.and_assoc]
  isShiftImm := by
    simp [DecodeSecond.ofWord, Kind.isShiftImm, hf.imm, Class.kind_eq_shiftImm, funct3, funct7, ShiftOp.functs, ← Bool.and_or_distrib_left]
  isShift := by
    simp [DecodeSecond.ofWord, Kind.isShift, hf.reg, Class.kind_eq_shift, funct3, funct7, ShiftOp.functs, ← Bool.and_or_distrib_left]
  isJalrImm := by
    simp [DecodeSecond.ofWord, Kind.isImm, hf.jalr, hf.imm, Class.kind_eq_jalr, Class.kind_eq_imm, funct3, ImmOp.funct3,
      ← Bool.and_or_distrib_left]

/-- No class, no kind of one. -/
theorem classFlags_of_system {f : DecodeFirst} {q x : Word32} {k : Kind} (hf : f.Is .system) (hk : k.cls = .system) :
    ClassFlags k f (.ofWord q f x) := by
  have h := classFlags_of_class (q := q) (x := x) hf
  cases k <;> first
    | (cases hk; done)
    | exact ⟨h.lui, h.auipc, h.jal, h.jalr, fun _ => hf.branch, fun _ => hf.load, fun _ => hf.store, h.branch, h.load,
        h.store, h.imm, h.shiftImm, h.alu, h.shift, h.isShiftImm, h.isShift, h.isJalrImm⟩

/-- None of the instructions that the second stage reads off the word alone. -/
structure Plain (f : DecodeFirst) (q : Word32) : Prop where
  retirq : f.instrRetirq = false
  waitirq : f.instrWaitirq = false
  custom : opcode q ≠ 0b0001011
  fence : opcode q ≠ 0b0001111
  system : opcode q ≠ 0b1110011
  ebreak : q.extractLsb 15 0 ≠ 0x9002

theorem systemFlags_of_plain {f : DecodeFirst} {q x : Word32} {c : Class} {g3 : BitVec 3} {g7 : BitVec 7} (hq : Plain f q) :
    SystemFlags (c.kind g3 g7) f (.ofWord q f x) where
  retirq := by simp [hq.retirq, Class.kind_ne (c := c) (k := .retirq) rfl]
  waitirq := by simp [hq.waitirq, Class.kind_ne (c := c) (k := .waitirq) rfl]
  counter n := by
    have hop : q.extractLsb 6 0 ≠ 0b1110011#7 := hq.system
    cases n <;> simp [DecodeSecond.instrCounter, DecodeSecond.ofWord, Class.kind_ne (c := c) (k := .counter _) rfl, hop]
  environment := by
    have hop : q.extractLsb 6 0 ≠ 0b1110011#7 := hq.system
    have hlow : q.extractLsb 15 0 ≠ 0x9002#16 := hq.ebreak
    simp [DecodeSecond.ofWord, Class.kind_ne (c := c) (k := .environment) rfl, hop, hlow]
  fence := by
    have hop : q.extractLsb 6 0 ≠ 0b0001111#7 := hq.fence
    simp [DecodeSecond.ofWord, Class.kind_ne (c := c) (k := .fence) rfl, hop]
  getq := by
    have hop : q.extractLsb 6 0 ≠ 0b0001011#7 := hq.custom
    simp [DecodeSecond.ofWord, Class.kind_ne (c := c) (k := .getq) rfl, hop]
  setq := by
    have hop : q.extractLsb 6 0 ≠ 0b0001011#7 := hq.custom
    simp [DecodeSecond.ofWord, Class.kind_ne (c := c) (k := .setq) rfl, hop]
  maskirq := by
    have hop : q.extractLsb 6 0 ≠ 0b0001011#7 := hq.custom
    simp [DecodeSecond.ofWord, Class.kind_ne (c := c) (k := .maskirq) rfl, hop]
  timer := by
    have hop : q.extractLsb 6 0 ≠ 0b0001011#7 := hq.custom
    simp [DecodeSecond.ofWord, Class.kind_ne (c := c) (k := .timer) rfl, hop]

theorem flags_of_class {f : DecodeFirst} {q x : Word32} {c : Class} (hf : f.Is c) (hq : Plain f q) :
    Flags (c.kind (funct3 q) (funct7 q)) f (.ofWord q f x) :=
  ⟨classFlags_of_class hf, systemFlags_of_plain hq⟩

/-- The immediate of a class. -/
def Class.immediate (f : DecodeFirst) (q x : Word32) : Class → Word32
  | jal => f.decodedImmJ
  | lui | auipc => immU q
  | jalr | load | imm => immI q
  | branch => immB q
  | store => immS q
  | reg | system => x

theorem DecodeFirst.Is.decodedImm {f : DecodeFirst} {q x : Word32} {c : Class} (hf : f.Is c) :
    (DecodeSecond.ofWord q f x).decodedImm = c.immediate f q x := by
  simp only [DecodeSecond.ofWord, hf.lui, hf.auipc, hf.jal, hf.jalr, hf.branch, hf.load, hf.store, hf.imm]
  cases c <;> rfl

/-! ## The operands -/

/-- The operands of `i` are where the core looks for them. -/
def Operands : Insn → DecodeFirst → DecodeSecond → Prop
  | .base (.lui rd imm), f, d | .base (.auipc rd imm), f, d => f.decodedRd = rd.setWidth 6 ∧ d.decodedImm = imm
  | .base (.jal rd imm), f, _ => f.decodedRd = rd.setWidth 6 ∧ f.decodedImmJ = imm
  | .base (.jalr rd rs1 imm), f, d | .base (.load _ rd rs1 imm), f, d | .base (.imm _ rd rs1 imm), f, d =>
    f.decodedRd = rd.setWidth 6 ∧ f.decodedRs1 = rs1.setWidth 6 ∧ d.decodedImm = imm
  | .base (.branch _ rs1 rs2 imm), f, d | .base (.store _ rs1 rs2 imm), f, d =>
    f.decodedRs1 = rs1.setWidth 6 ∧ f.decodedRs2 = rs2 ∧ d.decodedImm = imm
  | .base (.shiftImm _ rd rs1 shamt), f, _ =>
    f.decodedRd = rd.setWidth 6 ∧ f.decodedRs1 = rs1.setWidth 6 ∧ f.decodedRs2 = shamt
  | .base (.alu _ rd rs1 rs2), f, _ | .base (.shift _ rd rs1 rs2), f, _ =>
    f.decodedRd = rd.setWidth 6 ∧ f.decodedRs1 = rs1.setWidth 6 ∧ f.decodedRs2 = rs2
  | .base (.mul op rd rs1 rs2), f, d =>
    f.decodedRd = rd.setWidth 6 ∧ f.decodedRs1 = rs1.setWidth 6 ∧ f.decodedRs2 = rs2 ∧ MulOp.ofInsn d.pcpiInsn = some op
  | .base (.div op rd rs1 rs2), f, d =>
    f.decodedRd = rd.setWidth 6 ∧ f.decodedRs1 = rs1.setWidth 6 ∧ f.decodedRs2 = rs2 ∧ DivOp.ofInsn d.pcpiInsn = some op
  | .base (.counter _ rd), f, _ | .base (.fence rd), f, _ | .waitirq rd, f, _ => f.decodedRd = rd.setWidth 6
  | .getq rd q, f, _ => f.decodedRd = rd.setWidth 6 ∧ f.decodedRs1 = 1#1 ++ q
  | .setq rd rs1, f, _ | .maskirq rd rs1, f, _ | .timer rd rs1, f, _ =>
    f.decodedRd = rd.setWidth 6 ∧ f.decodedRs1 = rs1.setWidth 6
  | .retirq rd, f, _ => f.decodedRd = rd.setWidth 6 ∧ f.decodedRs1 = 32
  | .base .environment, _, d | .illegal, _, d => isMulDiv d.pcpiInsn = false

/-- The decoder holds the instruction `i`. -/
structure Decoded (i : Insn) (f : DecodeFirst) (d : DecodeSecond) : Prop where
  flags : Flags i.kind f d
  operands : Operands i f d

theorem Decoded.of_class {i : Insn} {f : DecodeFirst} {q x : Word32} {c : Class} (hf : f.Is c) (hp : Plain f q)
    (hk : i.kind = c.kind (funct3 q) (funct7 q))
    (ho : (DecodeSecond.ofWord q f x).decodedImm = c.immediate f q x → Operands i f (.ofWord q f x)) :
    Decoded i f (.ofWord q f x) :=
  ⟨hk ▸ flags_of_class hf hp, ho hf.decodedImm⟩

/-! ## Full instructions -/

section Full

variable {w x : Word32}

/-- The opcode of a class. -/
def Class.opcode : Class → BitVec 7
  | lui => 0b0110111
  | auipc => 0b0010111
  | jal => 0b1101111
  | jalr => 0b1100111
  | branch => 0b1100011
  | load => 0b0000011
  | store => 0b0100011
  | imm => 0b0010011
  | reg => 0b0110011
  | system => 0b1110011

theorem is_ofFull {c : Class} (h : opcode w = c.opcode) (hj : c = .jalr → funct3 w = 0) : (DecodeFirst.ofFull w).Is c := by
  have hop : w.extractLsb 6 0 = c.opcode := h
  have hf : c = .jalr → w.extractLsb 14 12 = 0#3 := hj
  constructor <;> simp only [DecodeFirst.ofFull, hop] <;> cases c <;> simp [Class.opcode, hf]

theorem is_ofFull_system (h : ∀ c, opcode w = Class.opcode c → c = .system ∨ c = .jalr ∧ funct3 w ≠ 0) :
    (DecodeFirst.ofFull w).Is .system := by
  have hop : w.extractLsb 6 0 = opcode w := rfl
  have hf : w.extractLsb 14 12 = funct3 w := rfl
  constructor <;> simp only [DecodeFirst.ofFull, hop, hf, reduceCtorEq, decide_false, Bool.and_eq_false_imp, decide_eq_false_iff_not,
    decide_eq_true_eq]
  · exact fun ho => by simpa using h .lui ho
  · exact fun ho => by simpa using h .auipc ho
  · exact fun ho => by simpa using h .jal ho
  · exact fun ho => by simpa using h .jalr ho
  · exact fun ho => by simpa using h .branch ho
  · exact fun ho => by simpa using h .load ho
  · exact fun ho => by simpa using h .store ho
  · exact fun ho => by simpa using h .imm ho
  · exact fun ho => by simpa using h .reg ho

variable (hlow : w.extractLsb 1 0 = 0b11)

include hlow in
theorem not_ebreak : w.extractLsb 15 0 ≠ 0x9002#16 := by
  intro h
  have hbits := Concat.extract_low w (n := 15) (u := 1) (l := 0) (by omega) (by omega)
  rw [h, hlow] at hbits
  revert hbits
  decide

include hlow in
theorem plain_ofFull (hc : opcode w ≠ 0b0001011#7) (hf : opcode w ≠ 0b0001111#7)
    (hs : opcode w ≠ 0b1110011#7) : Plain (DecodeFirst.ofFull w) w := by
  have hop : w.extractLsb 6 0 ≠ 0b0001011#7 := hc
  refine ⟨?_, ?_, hc, hf, hs, not_ebreak hlow⟩ <;> simp [DecodeFirst.ofFull, hop]

include hlow in
/-- An instruction of a class. -/
theorem decoded_ofFull {c : Class} (h : opcode w = c.opcode) (hc : c ≠ .system) (hj : c = .jalr → funct3 w = 0) {i : Insn}
    (hk : i.kind = c.kind (funct3 w) (funct7 w)) (ho : Operands i (.ofFull w) (.ofWord w (.ofFull w) x)) :
    Decoded i (.ofFull w) (.ofWord w (.ofFull w) x) := by
  refine ⟨?_, ho⟩
  rw [hk]
  refine flags_of_class (is_ofFull h hj) (plain_ofFull hlow ?_ ?_ ?_) <;> rw [h] <;> revert hc <;> cases c <;> decide

theorem decodedRs1_ofFull (h : opcode w ≠ 0b0001011#7) : (DecodeFirst.ofFull w).decodedRs1 = (rs1 w).setWidth 6 := by
  have hop : w.extractLsb 6 0 ≠ 0b0001011#7 := h
  simp [DecodeFirst.ofFull, hop, rs1]

theorem not_mulDiv {f : DecodeFirst} (h : opcode w ≠ 0b0110011#7) : isMulDiv (DecodeSecond.ofWord w f x).pcpiInsn = false := by
  have hop : w.extractLsb' 0 7 ≠ 0b0110011#7 := h
  simp [DecodeSecond.ofWord, isMulDiv, hop]

include hlow in
theorem decoded_upper {c : Class} (h : opcode w = c.opcode) :
    (c = .lui → Decoded (.base (.lui (rd w) (immU w))) (.ofFull w) (.ofWord w (.ofFull w) x)) ∧
    (c = .auipc → Decoded (.base (.auipc (rd w) (immU w))) (.ofFull w) (.ofWord w (.ofFull w) x)) := by
  constructor <;> rintro rfl <;> exact decoded_ofFull hlow h nofun nofun rfl ⟨rfl, (is_ofFull h nofun).decodedImm⟩

include hlow in
theorem decoded_jal (h : opcode w = Class.opcode .jal) :
    Decoded (.base (.jal (rd w) (immJ w))) (.ofFull w) (.ofWord w (.ofFull w) x) := by
  refine decoded_ofFull hlow h nofun nofun rfl ⟨rfl, ?_⟩
  -- one part of the immediate after the other
  have h1 := Concat.signExtend_append (n := 12) (w.extractLsb 31 31) (w.extractLsb 19 12) (by omega)
  have h2 := (Concat.signExtend_append (n := 20) _ (w.extractLsb 20 20) (by omega)).trans (congrArg (· ++ _) h1)
  have h3 := (Concat.signExtend_append (n := 21) _ (w.extractLsb 30 21) (by omega)).trans (congrArg (· ++ _) h2)
  exact ((Concat.signExtend_append (n := 31) _ 0#1 (by omega)).trans (congrArg (· ++ _) h3)).symm

include hlow in
theorem decoded_jalr (h : opcode w = Class.opcode .jalr) (h0 : funct3 w = 0) :
    Decoded (.base (.jalr (rd w) (rs1 w) (immI w))) (.ofFull w) (.ofWord w (.ofFull w) x) :=
  decoded_ofFull hlow h nofun (fun _ => h0) rfl
    ⟨rfl, decodedRs1_ofFull (by rw [h]; decide), (is_ofFull h fun _ => h0).decodedImm⟩

include hlow in
theorem decoded_branch (h : opcode w = Class.opcode .branch) :
    Decoded ((((BranchOp.ofFunct3 (funct3 w)).map (.branch · (rs1 w) (rs2 w) (immB w))).map Insn.base).getD .illegal)
      (.ofFull w) (.ofWord w (.ofFull w) x) := by
  refine decoded_ofFull hlow h nofun nofun ?_ ?_ <;> cases ho : BranchOp.ofFunct3 (funct3 w)
  · simp [Class.kind, ho, Insn.kind]
  · simp [Class.kind, ho, Insn.kind]
  · exact not_mulDiv (by rw [h]; decide)
  · exact ⟨decodedRs1_ofFull (by rw [h]; decide), rfl, (is_ofFull h nofun).decodedImm⟩

include hlow in
theorem decoded_load (h : opcode w = Class.opcode .load) :
    Decoded ((((LoadOp.ofFunct3 (funct3 w)).map (.load · (rd w) (rs1 w) (immI w))).map Insn.base).getD .illegal)
      (.ofFull w) (.ofWord w (.ofFull w) x) := by
  refine decoded_ofFull hlow h nofun nofun ?_ ?_ <;> cases ho : LoadOp.ofFunct3 (funct3 w)
  · simp [Class.kind, ho, Insn.kind]
  · simp [Class.kind, ho, Insn.kind]
  · exact not_mulDiv (by rw [h]; decide)
  · exact ⟨rfl, decodedRs1_ofFull (by rw [h]; decide), (is_ofFull h nofun).decodedImm⟩

include hlow in
theorem decoded_store (h : opcode w = Class.opcode .store) :
    Decoded ((((StoreOp.ofFunct3 (funct3 w)).map (.store · (rs1 w) (rs2 w) (immS w))).map Insn.base).getD .illegal)
      (.ofFull w) (.ofWord w (.ofFull w) x) := by
  refine decoded_ofFull hlow h nofun nofun ?_ ?_ <;> cases ho : StoreOp.ofFunct3 (funct3 w)
  · simp [Class.kind, ho, Insn.kind]
  · simp [Class.kind, ho, Insn.kind]
  · exact not_mulDiv (by rw [h]; decide)
  · exact ⟨decodedRs1_ofFull (by rw [h]; decide), rfl, (is_ofFull h nofun).decodedImm⟩

include hlow in
theorem decoded_imm (h : opcode w = Class.opcode .imm) :
    Decoded (((((ImmOp.ofFunct3 (funct3 w)).map (.imm · (rd w) (rs1 w) (immI w))).or
      ((ShiftOp.ofFuncts (funct3 w) (funct7 w)).map (.shiftImm · (rd w) (rs1 w) (rs2 w)))).map Insn.base).getD .illegal)
      (.ofFull w) (.ofWord w (.ofFull w) x) := by
  refine decoded_ofFull hlow h nofun nofun ?_ ?_ <;> cases ho : ImmOp.ofFunct3 (funct3 w) <;>
    cases hs : ShiftOp.ofFuncts (funct3 w) (funct7 w)
  any_goals simp [Class.kind, ho, hs, Insn.kind]
  · exact not_mulDiv (by rw [h]; decide)
  · exact ⟨rfl, decodedRs1_ofFull (by rw [h]; decide), rfl⟩
  · exact ⟨rfl, decodedRs1_ofFull (by rw [h]; decide), (is_ofFull h nofun).decodedImm⟩
  · exact ⟨rfl, decodedRs1_ofFull (by rw [h]; decide), (is_ofFull h nofun).decodedImm⟩

include hlow in
theorem decoded_reg (h : opcode w = Class.opcode .reg) :
    Decoded (((((AluOp.ofFuncts (funct3 w) (funct7 w)).map (.alu · (rd w) (rs1 w) (rs2 w))).or
      (((ShiftOp.ofFuncts (funct3 w) (funct7 w)).map (.shift · (rd w) (rs1 w) (rs2 w))).or
        (((MulOp.ofInsn w).map (.mul · (rd w) (rs1 w) (rs2 w))).or
          ((DivOp.ofInsn w).map (.div · (rd w) (rs1 w) (rs2 w)))))).map Insn.base).getD .illegal)
      (.ofFull w) (.ofWord w (.ofFull w) x) := by
  have hrs1 := decodedRs1_ofFull (w := w) (by rw [h]; decide)
  cases ha : AluOp.ofFuncts (funct3 w) (funct7 w) with
  | some op => exact decoded_ofFull hlow h nofun nofun (by simp [Class.kind, ha, Insn.kind]) ⟨rfl, hrs1, rfl⟩
  | none =>
    cases hs : ShiftOp.ofFuncts (funct3 w) (funct7 w) with
    | some op => exact decoded_ofFull hlow h nofun nofun (by simp [Class.kind, ha, hs, Insn.kind]) ⟨rfl, hrs1, rfl⟩
    | none =>
      have hk : Class.kind (funct3 w) (funct7 w) .reg = .pcpi := by simp [Class.kind, ha, hs]
      cases hm : MulOp.ofInsn w with
      | some op => exact decoded_ofFull hlow h nofun nofun hk.symm ⟨rfl, hrs1, rfl, hm⟩
      | none =>
        cases hd : DivOp.ofInsn w with
        | some op => exact decoded_ofFull hlow h nofun nofun hk.symm ⟨rfl, hrs1, rfl, hd⟩
        | none =>
          refine decoded_ofFull hlow h nofun nofun hk.symm (Bool.eq_false_iff.2 fun hmd => ?_)
          rcases isMulDiv_cases hmd with ⟨op, ho⟩ | ⟨op, ho⟩
          · exact absurd (hm.symm.trans ho) nofun
          · exact absurd (hd.symm.trans ho) nofun

/-! The instructions that have no class. -/

theorem opcode_ne (h : ∀ c ≠ Class.system, opcode w ≠ c.opcode) : ∀ c, opcode w = Class.opcode c → c = .system ∨ c = .jalr ∧ funct3 w ≠ 0 := by
  intro c hc
  by_contra hn
  exact h c (fun hs => hn (.inl hs)) hc

include hlow in
theorem systemFlags_custom (h : opcode w = 0b0001011#7) :
    SystemFlags (Insn.ofCustom w).kind (.ofFull w) (.ofWord w (.ofFull w) x) := by
  have hop : w.extractLsb 6 0 = 0b0001011#7 := h
  have heb := not_ebreak hlow
  have hg : w.extractLsb 31 25 = funct7 w := rfl
  unfold Insn.ofCustom
  constructor
  case counter =>
    intro c
    cases c <;> simp [DecodeSecond.instrCounter, DecodeSecond.ofWord, hop] <;> split_ifs <;> simp [Insn.kind]
  all_goals
    simp [DecodeSecond.ofWord, DecodeFirst.ofFull, hop, heb, hg]
    split_ifs <;> simp_all [Insn.kind]

include hlow in
theorem decoded_custom (h : opcode w = 0b0001011#7) : Decoded (.ofCustom w) (.ofFull w) (.ofWord w (.ofFull w) x) := by
  have hop : w.extractLsb 6 0 = 0b0001011#7 := h
  have hg : w.extractLsb 31 25 = funct7 w := rfl
  have hf : (DecodeFirst.ofFull w).Is .system := is_ofFull_system (opcode_ne fun c hc => by rw [h]; revert hc; cases c <;> decide)
  refine ⟨⟨classFlags_of_system hf ?_, systemFlags_custom hlow h⟩, ?_⟩
  · unfold Insn.ofCustom
    split_ifs <;> rfl
  · unfold Insn.ofCustom
    split_ifs with h0 h1 h2 h3 h4 h5
    · exact ⟨rfl, by simp [DecodeFirst.ofFull, hop, hg, h0, rs1]⟩
    · exact ⟨rfl, by simp [DecodeFirst.ofFull, hop, hg, h1, rs1]⟩
    · exact ⟨rfl, by simp [DecodeFirst.ofFull, hop, hg, h2]⟩
    · exact ⟨rfl, by simp [DecodeFirst.ofFull, hop, hg, h3, rs1]⟩
    · rfl
    · exact ⟨rfl, by simp [DecodeFirst.ofFull, hop, hg, h5, rs1]⟩
    · exact not_mulDiv (by rw [h]; decide)

/-- Bits 31 to 12 are `funct3`, `rs1` and the number of a CSR. -/
theorem csr_eq_iff {v : BitVec 20} : w.extractLsb 31 12 = v ↔
    w.extractLsb 31 20 = v.extractLsb' 8 12 ∧ rs1 w = v.extractLsb' 3 5 ∧ funct3 w = v.extractLsb' 0 3 := by
  have hlow : w.extractLsb' 12 8 = v.extractLsb' 0 8 ↔
      w.extractLsb' 15 5 = (v.extractLsb' 0 8).extractLsb' 3 5 ∧ w.extractLsb' 12 3 = (v.extractLsb' 0 8).extractLsb' 0 3 :=
    Concat.extract_add_eq_iff w 12 5 3
  rw [Concat.extract_extract _ _ _ (by omega), Concat.extract_extract _ _ _ (by omega)] at hlow
  exact (Concat.extract_add_eq_iff w 12 12 8).trans (and_congr_right fun _ => hlow)

/-- Bits 19 to 7 are `rd`, `funct3` and `rs1`. -/
theorem fields_eq_zero : w.extractLsb 19 7 = 0#13 ↔ rs1 w = 0 ∧ funct3 w = 0 ∧ rd w = 0 := by
  have hlow : w.extractLsb' 7 8 = 0#8 ↔ w.extractLsb' 12 3 = 0 ∧ w.extractLsb' 7 5 = 0 :=
    Concat.extract_add_eq_iff w 7 3 5
  exact (Concat.extract_add_eq_iff w 7 5 8).trans (and_congr_right fun _ => hlow)

/-- The kind of an instruction of the opcode SYSTEM. -/
def systemKind (w : Word32) : Kind :=
  if funct3 w = 0 then (if w.extractLsb 31 21 = 0 && rs1 w = 0 && rd w = 0 then .environment else .pcpi)
  else if funct3 w = 2 && rs1 w = 0 then ((Counter.ofCsr (w.extractLsb 31 20)).map .counter).getD .pcpi else .pcpi

theorem ofCsr_eq_some {csr : BitVec 12} {c : Counter} : Counter.ofCsr csr = some c ↔
    match c with
    | .cycle => csr = 0xC00 ∨ csr = 0xC01
    | .cycleh => csr = 0xC80 ∨ csr = 0xC81
    | .instret => csr = 0xC02
    | .instreth => csr = 0xC82 := by
  constructor
  · unfold Counter.ofCsr
    intro h
    split_ifs at h <;> cases h <;> simp_all
  · cases c with
    | cycle | cycleh =>
      rintro (rfl | rfl) <;> rfl
    | instret | instreth =>
      rintro rfl
      rfl

theorem systemKind_eq_counter {c : Counter} :
    systemKind w = .counter c ↔ funct3 w = 2 ∧ rs1 w = 0 ∧ Counter.ofCsr (w.extractLsb 31 20) = some c := by
  unfold systemKind
  split_ifs with h0 h1 h2
  · simp [h0]
  · simp [h0]
  · simp_all [Class.getD_map_eq_iff]
  · simp_all

theorem systemKind_eq_environment :
    systemKind w = .environment ↔ w.extractLsb 31 21 = 0 ∧ rs1 w = 0 ∧ funct3 w = 0 ∧ rd w = 0 := by
  unfold systemKind
  split_ifs with h0 h1 h2
  · simp_all
  · simp_all
  · simp_all [Class.getD_map_eq_iff]
  · simp_all

include hlow in
theorem systemFlags_system (h : opcode w = 0b1110011#7) : SystemFlags (systemKind w) (.ofFull w) (.ofWord w (.ofFull w) x) := by
  have hop : w.extractLsb 6 0 = 0b1110011#7 := h
  have heb := not_ebreak hlow
  have hne {k : Kind} (hk : ∀ c, k ≠ .counter c) (he : k ≠ .environment) (hp : k ≠ .pcpi) : systemKind w ≠ k := by
    unfold systemKind
    split_ifs
    · exact he.symm
    · exact hp.symm
    · cases Counter.ofCsr (w.extractLsb 31 20)
      · exact hp.symm
      · exact (hk _).symm
    · exact hp.symm
  constructor
  case counter =>
    intro c
    rw [Bool.eq_iff_iff, decide_eq_true_iff, systemKind_eq_counter, ofCsr_eq_some]
    cases c <;> simp [DecodeSecond.instrCounter, DecodeSecond.ofWord, hop, csr_eq_iff]
    all_goals tauto
  case environment =>
    simp [DecodeSecond.ofWord, hop, heb, systemKind_eq_environment, fields_eq_zero]
  all_goals
    simp [DecodeSecond.ofWord, DecodeFirst.ofFull, hop, hne]

include hlow in
theorem decoded_system (h : opcode w = 0b1110011#7) :
    Decoded (((if funct3 w = 0 then (if w.extractLsb 31 21 = 0 && rs1 w = 0 && rd w = 0 then some .environment else none)
      else if funct3 w = 2 && rs1 w = 0 then (Counter.ofCsr (w.extractLsb 31 20)).map (.counter · (rd w))
      else none).map Insn.base).getD .illegal) (.ofFull w) (.ofWord w (.ofFull w) x) := by
  have hf : (DecodeFirst.ofFull w).Is .system := is_ofFull_system (opcode_ne fun c hc => by rw [h]; revert hc; cases c <;> decide)
  have hs := systemFlags_system hlow (x := x) h
  have hmd {f : DecodeFirst} := not_mulDiv (w := w) (x := x) (f := f) (by rw [h]; decide)
  unfold systemKind at hs
  split_ifs at hs ⊢
  · exact ⟨⟨classFlags_of_system hf rfl, hs⟩, hmd⟩
  · exact ⟨⟨classFlags_of_system hf rfl, hs⟩, hmd⟩
  · cases hc : Counter.ofCsr (w.extractLsb 31 20) with
    | none =>
      rw [hc] at hs
      exact ⟨⟨classFlags_of_system hf rfl, hs⟩, hmd⟩
    | some c =>
      rw [hc] at hs
      exact ⟨⟨classFlags_of_system hf rfl, hs⟩, rfl⟩
  · exact ⟨⟨classFlags_of_system hf rfl, hs⟩, hmd⟩

include hlow in
theorem decoded_fence (h : opcode w = 0b0001111#7) :
    Decoded (((if funct3 w = 0 then some (.fence (rd w)) else none).map Insn.base).getD .illegal) (.ofFull w)
      (.ofWord w (.ofFull w) x) := by
  have hop : w.extractLsb 6 0 = 0b0001111#7 := h
  have hf : (DecodeFirst.ofFull w).Is .system := is_ofFull_system (opcode_ne fun c hc => by rw [h]; revert hc; cases c <;> decide)
  have heb := not_ebreak hlow
  have hg : w.extractLsb 14 12 = funct3 w := rfl
  have hs : SystemFlags (if funct3 w = 0 then .fence else .pcpi) (.ofFull w) (.ofWord w (.ofFull w) x) := by
    constructor
    case counter =>
      intro c
      cases c <;> simp [DecodeSecond.instrCounter, DecodeSecond.ofWord, hop] <;> split_ifs <;> simp
    case fence => simp [DecodeSecond.ofWord, hop, hg]
    all_goals
      simp [DecodeSecond.ofWord, DecodeFirst.ofFull, hop, heb, hg]
      split_ifs <;> simp_all
  split_ifs at hs ⊢
  · exact ⟨⟨classFlags_of_system hf rfl, hs⟩, rfl⟩
  · exact ⟨⟨classFlags_of_system hf rfl, hs⟩, not_mulDiv (by rw [h]; decide)⟩

include hlow in
theorem decoded_other (h : ∀ c, opcode w = Class.opcode c → c = .jalr ∧ funct3 w ≠ 0)
    (hc : opcode w ≠ 0b0001011#7) (hf : opcode w ≠ 0b0001111#7) :
    Decoded .illegal (.ofFull w) (.ofWord w (.ofFull w) x) := by
  have his : (DecodeFirst.ofFull w).Is .system := is_ofFull_system fun c hc => .inr (h c hc)
  have hs : opcode w ≠ 0b1110011#7 := fun ho => nomatch (h .system ho).1
  exact ⟨flags_of_class his (plain_ofFull hlow hc hf hs), not_mulDiv fun ho => nomatch (h .reg ho).1⟩

include hlow in
/-- A full word is decoded as its instruction. -/
theorem decoded_full : Decoded (.ofWord w) (.ofFull w) (.ofWord w (.ofFull w) x) := by
  unfold Insn.ofWord
  rw [if_neg (by simpa using hlow)]
  by_cases hcustom : opcode w = 0b0001011
  · rw [if_pos hcustom]
    exact decoded_custom hlow hcustom
  rw [if_neg hcustom]
  unfold decode
  by_cases hlui : opcode w = 0b0110111
  · rw [if_pos hlui]
    exact (decoded_upper hlow (c := .lui) hlui).1 rfl
  rw [if_neg hlui]
  by_cases hauipc : opcode w = 0b0010111
  · rw [if_pos hauipc]
    exact (decoded_upper hlow (c := .auipc) hauipc).2 rfl
  rw [if_neg hauipc]
  by_cases hjal : opcode w = 0b1101111
  · rw [if_pos hjal]
    exact decoded_jal hlow hjal
  rw [if_neg hjal]
  by_cases hjalr : opcode w = 0b1100111
  · rw [if_pos hjalr]
    by_cases h0 : funct3 w = 0
    · rw [if_pos h0]
      exact decoded_jalr hlow hjalr h0
    · rw [if_neg h0]
      refine decoded_other hlow (fun c hc => ?_) (by rw [hjalr]; decide) (by rw [hjalr]; decide)
      rw [hjalr] at hc
      cases c <;> first | exact ⟨rfl, h0⟩ | exact absurd hc (by decide)
  rw [if_neg hjalr]
  by_cases hbranch : opcode w = 0b1100011
  · rw [if_pos hbranch]
    exact decoded_branch hlow hbranch
  rw [if_neg hbranch]
  by_cases hload : opcode w = 0b0000011
  · rw [if_pos hload]
    exact decoded_load hlow hload
  rw [if_neg hload]
  by_cases hstore : opcode w = 0b0100011
  · rw [if_pos hstore]
    exact decoded_store hlow hstore
  rw [if_neg hstore]
  by_cases himm : opcode w = 0b0010011
  · rw [if_pos himm]
    exact decoded_imm hlow himm
  rw [if_neg himm]
  by_cases hreg : opcode w = 0b0110011
  · rw [if_pos hreg]
    exact decoded_reg hlow hreg
  rw [if_neg hreg]
  by_cases hfence : opcode w = 0b0001111
  · rw [if_pos hfence]
    exact decoded_fence hlow hfence
  rw [if_neg hfence]
  by_cases hsystem : opcode w = 0b1110011
  · rw [if_pos hsystem]
    exact decoded_system hlow hsystem
  rw [if_neg hsystem]
  refine decoded_other hlow (fun c hc => ?_) hcustom hfence
  cases c <;> exact absurd hc (by assumption)

end Full

end RiscvSoc.Cpu
