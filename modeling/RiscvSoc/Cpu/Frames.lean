import RiscvSoc.Cpu.CompressedSpec
import RiscvSoc.Cpu.Phases
/-!
# What an edge keeps

The parts that the phases share, over an edge that leaves their registers alone.
-/

namespace RiscvSoc.Cpu

open Rv32

namespace Core

variable {code : Word32 → Word32} {a : Arch} {s : Core} {i : CoreIn} {t : Vars} {T : Word32}

/-! ## Co-processors -/

theorem mulOp_of_not_valid (h : s.pcpiValid = false) : s.pcpiReq.mulOp = none := by
  rw [PcpiReq.mulOp, pcpiReq, h]
  rfl

theorem divOp_of_not_valid (h : s.pcpiValid = false) : s.pcpiReq.divOp = none := by
  rw [PcpiReq.divOp, pcpiReq, h]
  rfl

theorem PcpiQuiet.rest (h : PcpiQuiet s) : PcpiRest s := ⟨h.valid, .inl h.mul, .inl h.div⟩

theorem PcpiRest.units (h : PcpiRest s) : (s.step true i).mul.Quiet ∧ (s.step true i).div.Quiet := by
  constructor
  · rcases h.mul with hq | hd
    · exact PcpiMul.service.idle hq (mulOp_of_not_valid h.valid)
    · exact PcpiMul.service.rest hd (mulOp_of_not_valid h.valid)
  · rcases h.div with hq | hd
    · exact PcpiDiv.service.idle (i := ⟨s.pcpiReq, i.undef.pcpiRd⟩) hq (divOp_of_not_valid h.valid)
    · exact PcpiDiv.service.rest (i := ⟨s.pcpiReq, i.undef.pcpiRd⟩) hd (divOp_of_not_valid h.valid)

theorem PcpiRest.counter (h : PcpiRest s) (hm : (s.step true i).toMain = s.finish true i t)
    (hc : t.pcpiTimeoutCounter = (s.defaults true i).pcpiTimeoutCounter) : (s.step true i).pcpiTimeoutCounter = 15 := by
  refine (congrArg Main.pcpiTimeoutCounter hm).trans (hc.trans ?_)
  change (if (true && s.pcpiValid && !s.pcpiIntWait) = true then _ else 15) = 15#4
  rw [h.valid]
  rfl

/-- A cycle without a request and the co-processors are at rest. -/
theorem PcpiRest.step (h : PcpiRest s) (hm : (s.step true i).toMain = s.finish true i t) (hv : t.pcpiValid = false)
    (hc : t.pcpiTimeoutCounter = (s.defaults true i).pcpiTimeoutCounter) : PcpiQuiet (s.step true i) :=
  ⟨(congrArg Main.pcpiValid hm).trans hv, h.units.1, h.units.2, h.counter hm hc⟩

theorem PcpiQuiet.timeout (h : PcpiQuiet s) (hm : (s.step true i).toMain = s.finish true i t)
    (ht : t.pcpiTimeout = (s.defaults true i).pcpiTimeout) : (s.step true i).pcpiTimeout = false := by
  refine (congrArg Main.pcpiTimeout hm).trans (ht.trans ?_)
  change decide (s.pcpiTimeoutCounter = 0) = false
  rw [h.counter]
  rfl

/-! ## The register file -/

theorem cpuregsNext_of_none (h : s.cpuregsWrite = none) : s.cpuregsNext true = s.cpuregs := by
  funext r
  rw [cpuregsNext, h]

theorem cpuregsNext_of_some {x : Word32} (h : s.cpuregsWrite = some x) (hr : s.cpuregs = a.regs) :
    s.cpuregsNext true = (a.write s.latchedRd x).regs := by
  funext r
  rw [cpuregsNext, h]
  change (if (decide (s.latchedRd ≠ 0) && decide (s.latchedRd.toNat < 36) && decide (r = s.latchedRd)) = true then x else s.cpuregs r) =
    (if (decide (s.latchedRd ≠ 0) && decide (s.latchedRd.toNat < 36)) = true then Function.update a.regs s.latchedRd x else a.regs) r
  cases decide (s.latchedRd ≠ 0) && decide (s.latchedRd.toNat < 36) with
  | false => rw [hr]; rfl
  | true =>
    rw [Bool.true_and, if_pos rfl, hr, Function.update_apply]
    exact if_congr decide_eq_true_iff rfl rfl

theorem cpuregsWrite_of_ne (h : s.cpuState ≠ .fetch) : s.cpuregsWrite = none := by
  rw [cpuregsWrite, if_neg h]

theorem cpuregsWrite_branch (h : s.cpuState = .fetch) (hb : s.latchedBranch = true) :
    s.cpuregsWrite = some (s.regPc + if s.latchedCompr then 2 else 4) := by
  rw [cpuregsWrite, if_pos h, if_pos hb]

theorem cpuregsWrite_store (h : s.cpuState = .fetch) (hb : s.latchedBranch = false) (hl : s.latchedStore = true) :
    s.cpuregsWrite = some (if s.latchedStalu then s.aluOutQ else s.regOut) := by
  rw [cpuregsWrite, if_pos h, hb, if_neg Bool.false_ne_true, if_pos hl]

theorem cpuregsWrite_none (h : s.cpuState = .fetch) (hb : s.latchedBranch = false) (hl : s.latchedStore = false) (hi : s.irqState = 0) :
    s.cpuregsWrite = none := by
  rw [cpuregsWrite, if_pos h, hb, hl, hi, if_neg Bool.false_ne_true, if_neg Bool.false_ne_true]
  rfl

theorem cpuregs_step : (s.step true i).cpuregs = s.cpuregsNext true := rfl

theorem cpuregs_step_of_ne (h : s.cpuState ≠ .fetch) : (s.step true i).cpuregs = s.cpuregs :=
  cpuregsNext_of_none (cpuregsWrite_of_ne h)

/-- A register that is there is read. -/
theorem cpureg_eq (hr : s.cpuregs = a.regs) {r : BitVec 6} (h : r.toNat < 36) : s.cpureg i r = a.read r := by
  rw [cpureg, Arch.read, hr, regfileSize, if_pos h]

theorem toNat_setWidth_reg (r : Reg) : (r.setWidth 6).toNat < 36 := by
  have h := r.isLt
  rw [BitVec.toNat_setWidth, Nat.mod_eq_of_lt (by omega)]
  omega

theorem cpuregsRs1_eq (hr : s.cpuregs = a.regs) {r : Reg} (h : s.decodedRs1 = r.setWidth 6) : s.cpuregsRs1 i = a.x r := by
  rw [cpuregsRs1, h]
  exact cpureg_eq hr (toNat_setWidth_reg r)

theorem cpuregsRs2_eq (hr : s.cpuregs = a.regs) {r : Reg} (h : s.decodedRs2 = r) : s.cpuregsRs2 i = a.x r := by
  rw [cpuregsRs2, h]
  exact cpureg_eq hr (toNat_setWidth_reg r)

/-! ## The address of the next instruction -/

theorem currentPc_of_plain (hb : s.latchedBranch = false) (h : s.latchedStore = true ∨ s.irqState = 0) : s.currentPc = s.regNextPc := by
  rw [currentPc, hb, if_neg Bool.false_ne_true]
  rcases h with h | h
  · rw [if_pos h]
  · rw [h]
    cases s.latchedStore <;> rfl

theorem nextPc_of_plain (h : s.latchedBranch = false ∨ s.latchedStore = false) : s.nextPc = s.regNextPc := by
  rw [nextPc]
  rcases h with h | h <;> rw [h]
  · rw [Bool.and_false, if_neg Bool.false_ne_true]
  · rw [Bool.false_and, if_neg Bool.false_ne_true]

theorem jumps_eq_false (hb : s.latchedBranch = false) (hi : s.irqState = 0) : s.jumps = false := by
  rw [jumps, hb, hi]
  rfl

/-! ## An instruction that is executed -/

/-- The registers that the execution of an instruction leaves alone. -/
structure Frame where
  trap : Bool
  regPc : Word32
  regNextPc : Word32
  latchedCompr : Bool
  irqState : BitVec 2
  irqActive : Bool
  irqMask : Word32

def frame (m : Main) : Frame := ⟨m.trap, m.regPc, m.regNextPc, m.latchedCompr, m.irqState, m.irqActive, m.irqMask⟩

section Step

variable (hm : (s.step true i).toMain = s.finish true i t) (hk : frame t.toMain = frame (s.defaults true i).toMain)

include hm in
theorem frame_step : frame (s.step true i).toMain = frame t.toMain :=
  (congrArg frame hm).trans rfl

include hm hk in
theorem Executing.step (h : Executing code a s) (hs : s.cpuState ≠ .fetch) (hb : t.latchedBranch = false) :
    Executing code a (s.step true i) := by
  have hf : frame (s.step true i).toMain = frame (s.defaults true i).toMain := (frame_step hm).trans hk
  have hpc : (s.step true i).regPc = s.regPc := congrArg Frame.regPc hf
  have hcompr : (s.step true i).latchedCompr = s.latchedCompr := congrArg Frame.latchedCompr hf
  exact
    { stopped := h.stopped
      trap := congrArg Frame.trap hf
      mask := (congrArg Frame.irqMask hf).trans h.mask
      evenPc := h.evenPc
      evenReg := hpc ▸ h.evenReg
      clear := clearPrefetchedHighWordQ_step true
      irqState := (congrArg Frame.irqState hf).trans h.irqState
      regs := (cpuregs_step_of_ne hs).trans h.regs
      pc := hpc.trans h.pc
      active := (congrArg Frame.irqActive hf).trans h.active
      branch := (congrArg Main.latchedBranch hm).trans hb
      nextPc := (congrArg Frame.regNextPc hf).trans h.nextPc
      length := hcompr ▸ h.length }

theorem Executing.jumps (h : Executing code a s) : s.jumps = false := jumps_eq_false h.branch h.irqState

include hm hk in
theorem Decodes.step (h : Decodes code a s) (hs : s.cpuState ≠ .fetch) (hb : t.latchedBranch = false)
    (hdone : (s.memDoRinst && s.memDone true i) = false) (ht : t.decoderTrigger = (s.memDoRinst && s.memDone true i))
    (hl : t.latchedStalu = false) (hd : t.setMemDoRdata = false ∧ t.memDoRdata = false) (hw : t.setMemDoWdata = false ∧ t.memDoWdata = false) :
    Decodes code a (s.step true i) where
  toExecuting := h.toExecuting.step hm hk hs hb
  rdata := by rw [memDoRdata_of hm, hd.1, hd.2, Bool.and_false, Bool.or_self]
  wdata := by rw [memDoWdata_of hm, hw.1, hw.2, Bool.and_false, Bool.or_self]
  trigger := (congrArg Main.decoderTrigger hm).trans (ht.trans hdone)
  insn := by
    have hdec : s.decodes = false := by rw [decodes, h.trigger, Bool.false_and]
    rw [toDecodeFirst_step hdone, toDecodeSecond_step hdec]
    exact h.insn
  stalu := (congrArg Main.latchedStalu hm).trans hl

/-- The next instruction is fetched at its address. -/
theorem Executing.asks (h : Executing code a s) (hp : s.memDoPrefetch = true) (hd : s.memDoRdata = false) (hw : s.memDoWdata = false) :
    Asks (a.pc + lengthAt code a.pc) s where
  trap := h.trap
  rdata := hd
  wdata := hw
  asks := by rw [hp, Bool.true_or]
  nextPc := (nextPc_of_plain (.inl h.branch)).trans h.nextPc
  clear := h.clear

end Step

/-! ## The instruction to come -/

section Quadrants

variable (l : Word32) (f : DecodeFirst)

theorem compressedInstr_ofQ0 : (DecodeFirst.ofQ0 l f).compressedInstr = f.compressedInstr := by
  unfold DecodeFirst.ofQ0
  dsimp only
  repeat' split
  all_goals rfl

theorem compressedInstr_ofQ1 : (DecodeFirst.ofQ1 l f).compressedInstr = f.compressedInstr := by
  unfold DecodeFirst.ofQ1
  dsimp only
  repeat' split
  all_goals rfl

theorem compressedInstr_ofQ2 : (DecodeFirst.ofQ2 l f).compressedInstr = f.compressedInstr := by
  unfold DecodeFirst.ofQ2
  dsimp only
  repeat' split
  all_goals rfl

theorem compressedInstr_ofWord : (DecodeFirst.ofWord l).compressedInstr = decide (l.extractLsb 1 0 ≠ 0b11#2) := by
  unfold DecodeFirst.ofWord
  split
  · rename_i h
    rw [decide_eq_true h]
    unfold DecodeFirst.ofCompressed
    dsimp only
    split
    · exact compressedInstr_ofQ0 ..
    · split
      · exact compressedInstr_ofQ1 ..
      · split
        · exact compressedInstr_ofQ2 ..
        · rfl
  · rename_i h
    rw [decide_eq_false h]
    rfl

end Quadrants

/-- The word that comes in is the instruction at `T`. -/
theorem Fetched.got (h : Fetched code T s i) (ht : (s.step true i).decoderTrigger = true) (hp : (s.step true i).decoderPseudoTrigger = false) :
    Got code (s.step true i) T := by
  have hfirst := toDecodeFirst_done h.rinst h.done
  refine ⟨fun j => ?_, ?_, h.buffered⟩
  · have hsecond : (s.step true i).decodeSecond true j =
        .ofWord (expandQ (s.memRdataLatched true i) (s.memRdataLatched true i)) (.ofWord (s.memRdataLatched true i)) j.undef.decodedImm := by
      unfold decodeSecond
      rw [decodes, ht, hp, h.q, hfirst]
      rfl
    rw [hsecond, hfirst, ← h.insn]
    exact decoded_ofWord _ _
  · rw [instrLen, show (s.step true i).compressedInstr = _ from congrArg DecodeFirst.compressedInstr hfirst, compressedInstr_ofWord, ← h.length,
      Insn.length]
    exact if_congr (decide_eq_true_iff) rfl rfl

/-- The decoder does not change. -/
theorem Got.step (h : Got code s T) (hr : s.memDoRinst = false) (hd : (s.step true i).decodes = false) (hk : Keeps s (s.step true i)) :
    Got code (s.step true i) T := by
  have hfirst : (s.step true i).toDecodeFirst = s.toDecodeFirst := toDecodeFirst_step (by rw [hr, Bool.false_and])
  refine ⟨fun j => ?_, ?_, h.buffered.keep hk⟩
  · have hsecond : (s.step true i).decodeSecond true j = s.decodeSecond true i := by
      unfold decodeSecond
      rw [hd]
      rfl
    rw [hsecond, hfirst]
    exact h.insn i
  · rw [instrLen, show (s.step true i).compressedInstr = _ from congrArg DecodeFirst.compressedInstr hfirst]
    exact h.length

/-! ## An instruction ends -/

/-- What an edge does to the machine of the program: nothing, or one step. -/
def Advances (code : Word32 → Word32) (a : Arch) (s : Core) (i : CoreIn) : Prop :=
  ∃ b, ((b = a ∧ s.access i = none) ∨ Arch.Step code a (s.access i) b) ∧ Phase code b (s.step true i)

theorem advances_of_phase (h : s.access i = none) (hp : Phase code a (s.step true i)) : Advances code a s i := ⟨a, .inl ⟨rfl, h⟩, hp⟩

theorem advances_of_insn {b : Arch} (u : Word32) (ha : a.stopped = false) (hu : ∀ rd, insnAt code a.pc = .waitirq rd → u ≠ 0)
    (he : a.exec (lengthAt code a.pc) u (insnAt code a.pc) = (s.access i, b)) (hp : Phase code b (s.step true i)) :
    Advances code a s i := by
  refine ⟨b, .inr ?_, hp⟩
  have hstep : Arch.Step code a _ _ := .insn a u ha hu
  rwa [he] at hstep

theorem lengthAt_cases (code : Word32 → Word32) (T : Word32) : lengthAt code T = 2 ∨ lengthAt code T = 4 := by
  unfold lengthAt Insn.length
  split
  · exact .inl rfl
  · exact .inr rfl

theorem even_add {x y : Word32} (hx : x.getLsbD 0 = false) (hy : y.getLsbD 0 = false) : (x + y).getLsbD 0 = false := by
  rw [BitVec.getLsbD_add (by omega), hx, hy]
  simp [BitVec.carry, Nat.mod_one]

theorem even_lengthAt (code : Word32 → Word32) (T : Word32) : (lengthAt code T).getLsbD 0 = false := by
  rcases lengthAt_cases code T with h | h <;> rw [h] <;> rfl

theorem even_and_not_one (x : Word32) : (x &&& ~~~1).getLsbD 0 = false := by
  rw [BitVec.getLsbD_and]
  exact Bool.and_false _

theorem and_not_one_of_even {x : Word32} (h : x.getLsbD 0 = false) : x &&& ~~~1 = x := by
  refine BitVec.eq_of_getLsbD_eq fun k hk => ?_
  rcases Nat.eq_zero_or_pos k with rfl | hpos
  · rw [even_and_not_one, h]
  · have hbit : (1 : Word32).getLsbD k = false := by
      rw [BitVec.ofNat_eq_ofNat, BitVec.getLsbD_one]
      simpa using hpos.ne'
    rw [BitVec.getLsbD_and, BitVec.getLsbD_not, hbit, decide_eq_true hk]
    exact Bool.and_true _

/-- The registers that an instruction without a jump leaves alone but the mask. -/
structure Frame' where
  trap : Bool
  regPc : Word32
  regNextPc : Word32
  irqState : BitVec 2
  irqActive : Bool

def frame' (m : Main) : Frame' := ⟨m.trap, m.regPc, m.regNextPc, m.irqState, m.irqActive⟩

section Ends

variable (hm : (s.step true i).toMain = s.finish true i t) {b : Arch}

include hm in
/-- An instruction ends that goes on to the next in memory. -/
theorem Executing.between (h : Executing code a s) (hs : s.cpuState ≠ .fetch) (hstate : (s.step true i).cpuState = .fetch)
    (hk : frame' t.toMain = frame' (s.defaults true i).toMain) (hb : t.latchedBranch = false)
    (hd : (s.step true i).memDoRdata = false) (hw : (s.step true i).memDoWdata = false)
    (hstop : b.stopped = false) (hmask : t.irqMask = b.irqMask) (hact : a.irqActive = b.irqActive)
    (hpc : b.pc = a.pc + lengthAt code a.pc)
    (hregs : b.regs = if t.latchedStore then (a.write t.latchedRd (if t.latchedStalu then t.aluOutQ else t.regOut)).regs else a.regs) :
    Between b (s.step true i) := by
  have hf : frame' (s.step true i).toMain = frame' (s.defaults true i).toMain := (congrArg frame' hm).trans hk
  have hbranch : (s.step true i).latchedBranch = false := (congrArg Main.latchedBranch hm).trans hb
  have hirq : (s.step true i).irqState = 0 := (congrArg Frame'.irqState hf).trans h.irqState
  have hr : (s.step true i).cpuregs = a.regs := (cpuregs_step_of_ne hs).trans h.regs
  have hreg : (s.step true i).regPc = s.regPc := congrArg Frame'.regPc hf
  refine
    { stopped := hstop
      trap := congrArg Frame'.trap hf
      mask := (congrArg Main.irqMask hm).trans hmask
      evenPc := hpc ▸ even_add h.evenPc (even_lengthAt ..)
      evenReg := hreg ▸ h.evenReg
      clear := clearPrefetchedHighWordQ_step true
      rdata := hd
      wdata := hw
      state := hstate
      irqState := hirq
      regs := ?_
      pc := ?_
      active := ((congrArg Frame'.irqActive hf).trans h.active).trans hact }
  · cases hl : t.latchedStore with
    | false =>
      have hstore : (s.step true i).latchedStore = false := (congrArg Main.latchedStore hm).trans hl
      rw [cpuregsNext_of_none (cpuregsWrite_none hstate hbranch hstore hirq), hregs, hl, if_neg Bool.false_ne_true, hr]
    | true =>
      have hstore : (s.step true i).latchedStore = true := (congrArg Main.latchedStore hm).trans hl
      rw [cpuregsNext_of_some (cpuregsWrite_store hstate hbranch hstore) hr, hregs, hl, if_pos rfl,
        show (s.step true i).latchedRd = t.latchedRd from (congrArg Main.latchedRd hm).trans rfl,
        show (s.step true i).latchedStalu = t.latchedStalu from (congrArg Main.latchedStalu hm).trans rfl,
        show (s.step true i).aluOutQ = t.aluOutQ from (congrArg Main.aluOutQ hm).trans rfl,
        show (s.step true i).regOut = t.regOut from (congrArg Main.regOut hm).trans rfl]
  · rw [currentPc_of_plain hbranch (.inr hirq), hpc]
    exact (congrArg Frame'.regNextPc hf).trans h.nextPc

include hm in
/-- An instruction ends that goes on somewhere else. -/
theorem Between.of_jump (hrun : Running a s) (hs : s.cpuState ≠ .fetch) (hbus : s.busError true = false) (hr : s.cpuregs = a.regs)
    (hirq : s.irqState = 0) (htrap : t.trap = false) (hpc : t.regPc = s.regPc) (hcompr : t.latchedCompr = s.latchedCompr)
    (hirq' : t.irqState = s.irqState) (ht : t.cpuState = .fetch) (hb : t.latchedBranch = true) (hl : t.latchedStore = true)
    (hd : NoData (s.step true i)) (hstop : b.stopped = false) (hmask : t.irqMask = b.irqMask) (hact : t.irqActive = b.irqActive)
    (htarget : (if t.latchedStalu then t.aluOutQ else t.regOut) &&& ~~~1 = b.pc)
    (hregs : (a.write t.latchedRd (s.regPc + if s.latchedCompr then 2 else 4)).regs = b.regs) : Between b (s.step true i) := by
  have hbranch : (s.step true i).latchedBranch = true := (congrArg Main.latchedBranch hm).trans hb
  have hstore : (s.step true i).latchedStore = true := (congrArg Main.latchedStore hm).trans hl
  have hstate : (s.step true i).cpuState = .fetch := (cpuState_of hm hbus).trans ht
  have hreg : (s.step true i).regPc = s.regPc := (congrArg Main.regPc hm).trans hpc
  refine
    { stopped := hstop
      trap := (congrArg Main.trap hm).trans htrap
      mask := (congrArg Main.irqMask hm).trans hmask
      evenPc := htarget ▸ even_and_not_one _
      evenReg := hreg ▸ hrun.evenReg
      clear := clearPrefetchedHighWordQ_step true
      toNoData := hd
      state := hstate
      irqState := (congrArg Main.irqState hm).trans (hirq'.trans hirq)
      regs := ?_
      pc := ?_
      active := (congrArg Main.irqActive hm).trans hact }
  · rw [cpuregsNext_of_some (cpuregsWrite_branch hstate hbranch) ((cpuregs_step_of_ne hs).trans hr), hreg,
      show (s.step true i).latchedRd = t.latchedRd from (congrArg Main.latchedRd hm).trans rfl,
      show (s.step true i).latchedCompr = s.latchedCompr from (congrArg Main.latchedCompr hm).trans hcompr]
    exact hregs
  · rw [currentPc, hbranch, if_pos rfl, hstore, if_pos rfl,
      show (s.step true i).latchedStalu = t.latchedStalu from (congrArg Main.latchedStalu hm).trans rfl,
      show (s.step true i).aluOutQ = t.aluOutQ from (congrArg Main.aluOutQ hm).trans rfl,
      show (s.step true i).regOut = t.regOut from (congrArg Main.regOut hm).trans rfl]
    exact htarget

include hm in
/-- Its successor is awaited, or it is there. -/
theorem Executing.proceeds (h : Executing code a s) {r q : Bool} (ha : Ahead code a s r) (hc : Answers code s i) (hnd : NoData s)
    (hp : t.memDoPrefetch = true) (hset : t.setMemDoRinst = false) (hr : t.memDoRinst = q) (hr' : r = true → q = true)
    (htrig : t.decoderTrigger = (s.memDoRinst && s.memDone true i)) (hpseudo : t.decoderPseudoTrigger = false)
    (hwait : t.doWaitirq = false) (hpcpi : PcpiRest (s.step true i)) (hquiet : r = true → PcpiQuiet (s.step true i)) (hpc : b.pc = a.pc + lengthAt code a.pc)
    (hbranch : t.latchedBranch = false) (hbetween : Between b (s.step true i)) : Phase code b (s.step true i) := by
  have hask := h.asks ha.prefetch hnd.rdata hnd.wdata
  have hbr : (s.step true i).latchedBranch = false := (congrArg Main.latchedBranch hm).trans hbranch
  have hj : (s.step true i).jumps = false := jumps_eq_false hbr hbetween.irqState
  have hrinst : (s.step true i).memDoRinst = (!s.memDone true i && q) := by rw [memDoRinst_of hm, hset, hr, Bool.false_or]
  have hpre : (s.step true i).memDoPrefetch = !s.memDone true i := by rw [memDoPrefetch_of hm, hp, Bool.and_true]
  have htrigger : (s.step true i).decoderTrigger = (s.memDoRinst && s.memDone true i) := (congrArg Main.decoderTrigger hm).trans htrig
  have hf : Fetching code (a.pc + lengthAt code a.pc) s.memDoRinst s := ha.rinst.symm ▸ ha.fetching
  rcases hf.step (q := q) hask hc (fun hri => hr' (ha.rinst ▸ hri)) hj with ⟨hdone, hf'⟩ | hf'
  · rw [hdone] at hrinst hpre htrigger
    refine .fetch
      { toBetween := hbetween
        trigger := htrigger.trans (Bool.and_false _)
        waitirq := (congrArg Main.doWaitirq hm).trans hwait
        pcpi := hpcpi
        fetch := .inr ⟨⟨hbetween.trap, hbetween.rdata, hbetween.wdata, by rw [hpre]; rfl, ?_, hbetween.clear⟩, ?_⟩ }
    · rw [nextPc_of_plain (.inl hbr), ← currentPc_of_plain hbr (.inr hbetween.irqState), hbetween.pc]
    · rw [hrinst, hpc]
      exact hf'
  · rw [hf'.done] at hrinst hpre htrigger
    rw [hf'.rinst] at htrigger
    refine .dispatch
      { toBetween := hbetween
        prefetch := hpre
        rinst := hrinst
        idle := hf'.idle
        trigger := htrigger
        branch := hbr
        pcpi := hquiet (ha.rinst.symm.trans hf'.rinst)
        got := ?_ }
    rw [hpc]
    exact hf'.got htrigger ((congrArg Main.decoderPseudoTrigger hm).trans hpseudo)

end Ends

end Core

end RiscvSoc.Cpu
