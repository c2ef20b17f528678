import RiscvSoc.Cpu.Datapath
import RiscvSoc.Cpu.DivRun
import RiscvSoc.Cpu.MulRun
/-!
# The edges of the main state machine

What it does in a cycle of each state, for the instruction that is decoded.
-/

namespace RiscvSoc.Cpu

open Rv32

namespace Core

variable {s : Core} {i : CoreIn}

/-! ## After the `case` -/

theorem toMain_step : (s.step true i).toMain = s.finish true i (s.fsm true i (s.defaults true i)) := rfl

theorem or_and_ne_zero {x m : Word32} (h : x &&& m ≠ 0) (y : Word32) : (x ||| y) &&& m ≠ 0 := by
  intro h0
  apply h
  refine BitVec.eq_of_getLsbD_eq fun k _ => ?_
  have hbit : ((x ||| y) &&& m).getLsbD k = (0 : Word32).getLsbD k := by rw [h0]
  simp only [BitVec.getLsbD_and, BitVec.getLsbD_or, BitVec.ofNat_eq_ofNat, BitVec.getLsbD_zero] at hbit ⊢
  cases hx : x.getLsbD k with
  | false => rfl
  | true => simpa [hx] using hbit

section Finish

variable {t : Vars} (hm : (s.step true i).toMain = s.finish true i t)

include hm

theorem cpuState_of (hb : s.busError true = false) : (s.step true i).cpuState = t.cpuState := by
  refine (congrArg Main.cpuState hm).trans ?_
  change (if (s.busError true && !s.catches irqBuserror) = true then CpuState.trap else t.cpuState) = t.cpuState
  rw [hb, Bool.false_and, if_neg Bool.false_ne_true]

theorem memDoPrefetch_of : (s.step true i).memDoPrefetch = (!s.memDone true i && t.memDoPrefetch) :=
  congrArg Main.memDoPrefetch hm

theorem memDoRinst_of : (s.step true i).memDoRinst = (t.setMemDoRinst || (!s.memDone true i && t.memDoRinst)) :=
  congrArg Main.memDoRinst hm

theorem memDoRdata_of : (s.step true i).memDoRdata = (t.setMemDoRdata || (!s.memDone true i && t.memDoRdata)) :=
  congrArg Main.memDoRdata hm

theorem memDoWdata_of : (s.step true i).memDoWdata = (t.setMemDoWdata || (!s.memDone true i && t.memDoWdata)) :=
  congrArg Main.memDoWdata hm

/-- An interrupt that is pending stays so unless it is taken now. -/
theorem irqPending_of {m : Word32} (h : t.nextIrqPending &&& m ≠ 0) : (s.step true i).irqPending &&& m ≠ 0 := by
  obtain ⟨x, y, hp⟩ : ∃ x y : Word32, (s.step true i).irqPending = (t.nextIrqPending ||| i.irq ||| x ||| y) &&& ~~~maskedIrq :=
    ⟨_, _, congrArg Main.irqPending hm⟩
  have hall : ~~~maskedIrq = BitVec.allOnes 32 := rfl
  rw [hp, hall, BitVec.and_allOnes, BitVec.or_assoc, BitVec.or_assoc]
  exact or_and_ne_zero h _

end Finish

theorem busError_of (hd : s.memDoRdata = false) (hw : s.memDoWdata = false) (hpc : s.regPc.getLsbD 0 = false) :
    s.busError true = false := by
  rw [busError, misalignedData, misalignedInstr, hd, hw, hpc, Bool.or_self, Bool.false_and, Bool.and_false, Bool.or_self, Bool.and_false]

/-! ## The decoder -/

theorem toDecodeFirst_step (h : (s.memDoRinst && s.memDone true i) = false) : (s.step true i).toDecodeFirst = s.toDecodeFirst := by
  change s.decodeFirst true i = s.toDecodeFirst
  unfold decodeFirst
  rw [h]
  rfl

theorem toDecodeFirst_done (hr : s.memDoRinst = true) (hd : s.memDone true i = true) :
    (s.step true i).toDecodeFirst = .ofWord (s.memRdataLatched true i) := by
  change s.decodeFirst true i = _
  unfold decodeFirst
  rw [hr, hd]
  rfl

theorem toDecodeSecond_step (h : s.decodes = false) : (s.step true i).toDecodeSecond = s.toDecodeSecond := by
  change s.decodeSecond true i = s.toDecodeSecond
  unfold decodeSecond
  rw [h]
  rfl

/-- The classes follow the flags. -/
theorem classed_step (hd : s.decodes = false) (h : (s.memDoRinst && s.memDone true i) = false) : Classed (s.step true i) := by
  have hf := toDecodeFirst_step h
  have hs := toDecodeSecond_step (i := i) hd
  have hnot : (!s.decodes) = true := by rw [hd]; rfl
  refine ⟨?_, ?_, ?_, ?_, ?_⟩
  · rw [hf, hs]
    exact (congrArg (· && _) hnot).trans (Bool.true_and _)
  · rw [hs]
    rfl
  · rw [hs]
    rfl
  · rw [hs]
    rfl
  · rw [hf, hs]
    exact (congrArg (true && · && _) hnot).trans (Bool.true_and _)

/-! ## `cpu_state_fetch` -/

/-- What a cycle of the state does in any case. -/
def fetchVars (s : Core) (i : CoreIn) : Vars :=
  { s.defaults true i with
    memWordsize := 0
    regPc := s.currentPc, regNextPc := s.currentPc
    latchedStore := false, latchedStalu := false, latchedBranch := false
    latchedIsLu := false, latchedIsLh := false, latchedIsLb := false
    latchedRd := s.decodedRd, latchedCompr := s.compressedInstr }

section Fetch

variable (hs : s.cpuState = .fetch)

include hs in
theorem fsm_fetch : s.fsm true i (s.defaults true i) = s.fetch (s.defaults true i) := by
  unfold fsm
  rw [hs]

theorem takesIrq_eq (hi : s.irqState = 0) :
    s.takesIrq = (s.decoderTrigger && !s.irqActive && !s.irqDelay && s.irqPending &&& ~~~s.irqMask ≠ 0) := by
  rw [takesIrq, hi]
  simp

include hs in
/-- No instruction yet. -/
theorem main_wait (hi : s.irqState = 0) (ht : s.decoderTrigger = false) (hw : s.doWaitirq = false) :
    (s.step true i).toMain = s.finish true i { s.fetchVars i with memDoRinst := true } := by
  rw [toMain_step, fsm_fetch hs]
  unfold fetch
  simp only [takesIrq_eq hi, hi, ht, hw, BitVec.ofNat_eq_ofNat, BitVec.getLsbD_zero, Bool.not_false, Bool.and_false, Bool.false_and,
    Bool.or_self, Bool.false_eq_true, ↓reduceIte]
  rfl

include hs in
/-- An interrupt is to be taken. -/
theorem main_irq (hi : s.irqState = 0) (h : s.takesIrq = true) :
    (s.step true i).toMain = s.finish true i { s.fetchVars i with
      memDoRinst := !s.decoderTrigger && !s.doWaitirq
      irqState := 0b01
      latchedCompr := s.latchedCompr
      latchedRd := irqregsOffset } := by
  rw [toMain_step, fsm_fetch hs]
  unfold fetch
  simp only [h, hi, BitVec.ofNat_eq_ofNat, BitVec.getLsbD_zero, Bool.and_false, Bool.false_eq_true, ↓reduceIte]
  rfl

include hs in
/-- Its address is the next. -/
theorem main_irq0 (hi : s.irqState = 0b01) (hb : s.latchedBranch = false) (hl : s.latchedStore = false) :
    (s.step true i).toMain = s.finish true i { s.fetchVars i with
      memDoRinst := true
      irqActive := true
      irqState := 0b10
      latchedCompr := s.latchedCompr
      latchedRd := 33 } := by
  rw [toMain_step, fsm_fetch hs]
  have htakes : s.takesIrq = true := by rw [takesIrq, hi]; simp
  unfold fetch
  simp only [htakes, hi, hb, hl, Bool.not_false, Bool.true_and, ↓reduceIte]
  rfl

include hs in
/-- It is taken. -/
theorem main_irq1 (hi : s.irqState = 0b10) (hb : s.latchedBranch = false) (hl : s.latchedStore = false)
    (ht : s.decoderTrigger = false) (hw : s.doWaitirq = false) :
    (s.step true i).toMain = s.finish true i { s.fetchVars i with
      memDoRinst := true
      eoi := s.irqPending &&& ~~~s.irqMask
      nextIrqPending := (s.irqPending &&& latchedIrq) &&& s.irqMask
      irqState := 0b00
      latchedCompr := s.latchedCompr
      latchedRd := irqregsOffset } := by
  rw [toMain_step, fsm_fetch hs]
  have htakes : s.takesIrq = true := by rw [takesIrq, hi]; simp
  unfold fetch
  simp only [htakes, hi, hb, hl, ht, hw, Bool.not_false, Bool.true_and, ↓reduceIte]
  rfl

include hs in
theorem main_waitirq_done (hi : s.irqState = 0) (hn : s.takesIrq = false) (ht : (s.decoderTrigger || s.doWaitirq) = true)
    (hq : s.instrWaitirq = true) (hp : s.irqPending ≠ 0) :
    (s.step true i).toMain = s.finish true i { s.fetchVars i with
      memDoRinst := true
      latchedStore := true
      regOut := s.irqPending
      regNextPc := s.currentPc + s.instrLen } := by
  have hne : ¬ s.irqPending = 0#32 := hp
  rw [toMain_step, fsm_fetch hs]
  unfold fetch
  simp only [hn, hi, ht, hq, hne, BitVec.ofNat_eq_ofNat, BitVec.getLsbD_zero, Bool.and_false, Bool.and_self, Bool.false_eq_true,
    ne_eq, not_false_eq_true, ↓reduceIte]
  rfl

include hs in
theorem main_waitirq_wait (hi : s.irqState = 0) (hn : s.takesIrq = false) (ht : (s.decoderTrigger || s.doWaitirq) = true)
    (hq : s.instrWaitirq = true) (hp : s.irqPending = 0) :
    (s.step true i).toMain = s.finish true i { s.fetchVars i with
      memDoRinst := !s.decoderTrigger && !s.doWaitirq
      doWaitirq := true } := by
  rw [toMain_step, fsm_fetch hs]
  unfold fetch
  simp only [hn, hi, ht, hq, hp, BitVec.ofNat_eq_ofNat, BitVec.getLsbD_zero, Bool.and_false, Bool.and_self, Bool.false_eq_true,
    ne_eq, not_true_eq_false, ↓reduceIte]
  rfl

include hs in
theorem main_jal (hi : s.irqState = 0) (hn : s.takesIrq = false) (ht : s.decoderTrigger = true) (hq : s.instrWaitirq = false)
    (hj : s.instrJal = true) :
    (s.step true i).toMain = s.finish true i { s.fetchVars i with
      irqDelay := s.irqActive
      countInstr := s.countInstr + 1
      memDoRinst := true
      regNextPc := s.currentPc + s.decodedImmJ
      latchedBranch := true } := by
  rw [toMain_step, fsm_fetch hs]
  unfold fetch
  simp only [hn, hi, ht, hq, hj, BitVec.ofNat_eq_ofNat, BitVec.getLsbD_zero, Bool.and_false, Bool.false_eq_true, ↓reduceIte]
  rfl

include hs in
/-- The instruction starts. -/
theorem main_start (hi : s.irqState = 0) (hn : s.takesIrq = false) (ht : s.decoderTrigger = true) (hq : s.instrWaitirq = false)
    (hj : s.instrJal = false) :
    (s.step true i).toMain = s.finish true i { s.fetchVars i with
      irqDelay := s.irqActive
      countInstr := s.countInstr + 1
      memDoRinst := false
      memDoPrefetch := !s.instrJalr && !s.instrRetirq
      regNextPc := s.currentPc + s.instrLen
      cpuState := .ldRs1 } := by
  rw [toMain_step, fsm_fetch hs]
  unfold fetch
  simp only [hn, hi, ht, hq, hj, BitVec.ofNat_eq_ofNat, BitVec.getLsbD_zero, Bool.and_false, Bool.false_eq_true, ↓reduceIte]
  rfl

end Fetch
/-! ## `cpu_state_ld_rs1` -/

/-- What the state does for an instruction of kind `k`. -/
def ldRs1Of (k : Kind) (s : Core) (i : CoreIn) (t : Vars) : Vars :=
  let t := { t with regOp1 := i.undef.regOp1, regOp2 := i.undef.regOp2 }
  let rs1 := s.cpuregsRs1 i
  let rs2 := s.cpuregsRs2 i
  match k with
  | .pcpi | .environment =>
    let t := { t with regOp1 := rs1, pcpiValid := true, regSh := rs2.setWidth 5, regOp2 := rs2 }
    if s.pcpiIntReady then
      { t with
        memDoRinst := true, pcpiValid := false, regOut := s.pcpiIntRd i, latchedStore := s.pcpiIntWr, cpuState := .fetch }
    else if s.pcpiTimeout || k = .environment then
      if s.catches irqEbreak then
        { t with pcpiValid := false, nextIrqPending := t.nextIrqPending ||| (1 <<< irqEbreak), cpuState := .fetch }
      else { t with pcpiValid := false, cpuState := .trap }
    else t
  | .counter c =>
    { t with
      regOut :=
        match c with
        | .cycle => s.countCycle.extractLsb 31 0
        | .cycleh => s.countCycle.extractLsb 63 32
        | .instret => s.countInstr.extractLsb 31 0
        | .instreth => s.countInstr.extractLsb 63 32
      latchedStore := true
      cpuState := .fetch }
  | .lui => { t with regOp1 := 0, regOp2 := s.decodedImm, memDoRinst := s.memDoPrefetch, cpuState := .exec }
  | .auipc | .jal => { t with regOp1 := s.regPc, regOp2 := s.decodedImm, memDoRinst := s.memDoPrefetch, cpuState := .exec }
  | .getq => { t with regOut := rs1, latchedStore := true, cpuState := .fetch }
  | .setq => { t with regOut := rs1, latchedRd := s.latchedRd ||| irqregsOffset, latchedStore := true, cpuState := .fetch }
  | .retirq =>
    { t with
      eoi := 0, irqActive := false, latchedBranch := true, latchedStore := true
      regOut := rs1 &&& 0xFFFFFFFE
      cpuState := .fetch }
  | .maskirq => { t with latchedStore := true, regOut := s.irqMask, irqMask := rs1 ||| maskedIrq, cpuState := .fetch }
  | .timer => { t with latchedStore := true, regOut := s.timer, timer := rs1, cpuState := .fetch }
  | .load _ => { t with regOp1 := rs1, cpuState := .ldmem, memDoRinst := true }
  | .shiftImm _ => { t with regOp1 := rs1, regSh := s.decodedRs2, cpuState := .shift }
  | .jalr | .imm _ => { t with regOp1 := rs1, regOp2 := s.decodedImm, memDoRinst := s.memDoPrefetch, cpuState := .exec }
  | .store _ => { t with regOp1 := rs1, regSh := rs2.setWidth 5, regOp2 := rs2, cpuState := .stmem, memDoRinst := true }
  | .shift _ => { t with regOp1 := rs1, regSh := rs2.setWidth 5, regOp2 := rs2, cpuState := .shift }
  | .branch _ | .alu _ | .fence | .waitirq =>
    { t with regOp1 := rs1, regSh := rs2.setWidth 5, regOp2 := rs2, memDoRinst := s.memDoPrefetch, cpuState := .exec }

section LdRs1

variable {k : Kind} (hf : Flags k s.toDecodeFirst s.toDecodeSecond)

include hf in
theorem instrTrap_eq : s.instrTrap = (k = .pcpi || k = .environment : Bool) := by
  unfold instrTrap
  rw [show s.instrLui = _ from hf.lui, show s.instrAuipc = _ from hf.auipc, show s.instrJal = _ from hf.jal,
    show s.instrJalr = _ from hf.jalr, show s.instrBeq = _ from hf.branch .beq, show s.instrBne = _ from hf.branch .bne,
    show s.instrBlt = _ from hf.branch .blt, show s.instrBge = _ from hf.branch .bge, show s.instrBltu = _ from hf.branch .bltu,
    show s.instrBgeu = _ from hf.branch .bgeu, show s.instrLb = _ from hf.load .lb, show s.instrLh = _ from hf.load .lh,
    show s.instrLw = _ from hf.load .lw, show s.instrLbu = _ from hf.load .lbu, show s.instrLhu = _ from hf.load .lhu,
    show s.instrSb = _ from hf.store .sb, show s.instrSh = _ from hf.store .sh, show s.instrSw = _ from hf.store .sw,
    show s.instrAddi = _ from hf.imm .addi, show s.instrSlti = _ from hf.imm .slti, show s.instrSltiu = _ from hf.imm .sltiu,
    show s.instrXori = _ from hf.imm .xori, show s.instrOri = _ from hf.imm .ori, show s.instrAndi = _ from hf.imm .andi,
    show s.instrSlli = _ from hf.shiftImm .sll, show s.instrSrli = _ from hf.shiftImm .srl, show s.instrSrai = _ from hf.shiftImm .sra,
    show s.instrAdd = _ from hf.alu .add, show s.instrSub = _ from hf.alu .sub, show s.instrSll = _ from hf.shift .sll,
    show s.instrSlt = _ from hf.alu .slt, show s.instrSltu = _ from hf.alu .sltu, show s.instrXor = _ from hf.alu .xor,
    show s.instrSrl = _ from hf.shift .srl, show s.instrSra = _ from hf.shift .sra, show s.instrOr = _ from hf.alu .or,
    show s.instrAnd = _ from hf.alu .and, show s.instrRdcycle = _ from hf.counter .cycle, show s.instrRdcycleh = _ from hf.counter .cycleh,
    show s.instrRdinstr = _ from hf.counter .instret, show s.instrRdinstrh = _ from hf.counter .instreth,
    show s.instrFence = _ from hf.fence, show s.instrGetq = _ from hf.getq, show s.instrSetq = _ from hf.setq,
    show s.instrRetirq = _ from hf.retirq, show s.instrMaskirq = _ from hf.maskirq, show s.instrWaitirq = _ from hf.waitirq,
    show s.instrTimer = _ from hf.timer]
  cases k with
  | branch op | load op | store op | imm op | shiftImm op | alu op | shift op => cases op <;> rfl
  | counter c => cases c <;> rfl
  | _ => rfl

include hf in
theorem ldRs1_eq (hu : k ≠ .pcpi → s.isLuiAuipcJal = (k = .lui || k = .auipc || k = .jal : Bool)) (t : Vars) :
    s.ldRs1 i t = s.ldRs1Of k i t := by
  unfold ldRs1 ldRs1Of
  by_cases hk : k = .pcpi
  · subst hk
    rw [instrTrap_eq hf, show s.instrEcallEbreak = _ from hf.environment]
    rfl
  · rw [instrTrap_eq hf, show s.instrEcallEbreak = _ from hf.environment, isRdcycleRdcyclehRdinstrRdinstrh,
      show s.instrRdcycle = _ from hf.counter .cycle, show s.instrRdcycleh = _ from hf.counter .cycleh,
      show s.instrRdinstr = _ from hf.counter .instret, show s.instrRdinstrh = _ from hf.counter .instreth, hu hk,
      show s.instrLui = _ from hf.lui, show s.instrGetq = _ from hf.getq, show s.instrSetq = _ from hf.setq,
      show s.instrRetirq = _ from hf.retirq, show s.instrMaskirq = _ from hf.maskirq, show s.instrTimer = _ from hf.timer,
      show s.isLbLhLwLbuLhu = _ from hf.isLoad hk, show s.isSbShSw = _ from hf.isStore hk, show s.isSlliSrliSrai = _ from hf.isShiftImm,
      show s.isSllSrlSra = _ from hf.isShift, show s.isJalrAddiSltiSltiuXoriOriAndi = _ from hf.isJalrImm]
    cases k with
    | branch op | load op | store op | imm op | shiftImm op | alu op | shift op => cases op <;> rfl
    | counter c => cases c <;> rfl
    | pcpi => exact absurd rfl hk
    | _ => rfl

end LdRs1
end Core

end RiscvSoc.Cpu
