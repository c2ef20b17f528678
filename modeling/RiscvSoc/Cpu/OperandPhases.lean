import RiscvSoc.Cpu.FetchPhases
/-!
# The operands are read

The first cycle of an instruction. Many end here; the others go on to the state that does
their work.
-/

namespace RiscvSoc.Cpu

open Rv32

namespace Core

variable {code : Word32 → Word32} {a b : Arch} {s : Core} {i : CoreIn} {t : Vars}

/-! ## An instruction without a jump ends -/

/-- What the edge that ends it leaves alone. -/
structure Sequential (t : Vars) (s : Core) (i : CoreIn) : Prop where
  frame : frame' t.toMain = frame' (s.defaults true i).toMain
  state : t.cpuState = .fetch
  branch : t.latchedBranch = false
  noData : t.WantsNoData
  prefetch : t.memDoPrefetch = s.memDoPrefetch
  set : t.setMemDoRinst = false
  trigger : t.decoderTrigger = (s.memDoRinst && s.memDone true i)
  pseudo : t.decoderPseudoTrigger = false
  wait : t.doWaitirq = false

/-- The result is on its way to the registers of `b`. -/
structure Yields (code : Word32 → Word32) (a : Arch) (t : Vars) (b : Arch) : Prop where
  stopped : b.stopped = false
  mask : t.irqMask = b.irqMask
  active : a.irqActive = b.irqActive
  pc : b.pc = a.pc + lengthAt code a.pc
  regs : b.regs = if t.latchedStore then (a.write t.latchedRd (if t.latchedStalu then t.aluOutQ else t.regOut)).regs else a.regs

theorem Decodes.busError (h : Decodes code a s) : s.busError true = false := busError_of h.rdata h.wdata h.evenReg

theorem Decodes.ends (h : Decodes code a s) (hs : s.cpuState ≠ .fetch) {r q : Bool} (ha : Ahead code a s r) (hc : Answers code s i)
    (hm : (s.step true i).toMain = s.finish true i t) (hq : Sequential t s i) (hr : t.memDoRinst = q) (hr' : r = true → q = true)
    (hpcpi : PcpiRest (s.step true i)) (hquiet : r = true → PcpiQuiet (s.step true i)) (hy : Yields code a t b) :
    Phase code b (s.step true i) := by
  obtain ⟨hd, hw⟩ := hq.noData.step hm
  have hbetween := h.toExecuting.between hm hs ((cpuState_of hm h.busError).trans hq.state) hq.frame hq.branch hd hw hy.stopped hy.mask hy.active hy.pc hy.regs
  exact h.toExecuting.proceeds hm ha hc h.toNoData (hq.prefetch.trans ha.prefetch) hq.set hr hr' hq.trigger hq.pseudo hq.wait hpcpi hquiet hy.pc
    hq.branch hbetween

namespace ReadsOperands

variable (h : ReadsOperands code a s) {k : Kind} (hk : (insnAt code a.pc).kind = k)

include h hk

theorem main : (s.step true i).toMain = s.finish true i (s.ldRs1Of k i (s.defaults true i)) := by
  have hf : Flags k s.toDecodeFirst s.toDecodeSecond := hk ▸ h.insn.flags
  have hu : k ≠ .pcpi → s.isLuiAuipcJal = (k = .lui || k = .auipc || k = .jal : Bool) := fun _ => by
    rw [h.upper, show s.instrLui = _ from hf.lui, show s.instrAuipc = _ from hf.auipc, show s.instrJal = _ from hf.jal]
  rw [toMain_step, fsm, h.state]
  exact congrArg _ (ldRs1_eq hf hu _)

theorem ahead (h1 : k ≠ .jalr) (h2 : k ≠ .retirq) : Ahead code a s false := by
  have hf : Flags k s.toDecodeFirst s.toDecodeSecond := hk ▸ h.insn.flags
  have hfetch := h.fetch
  rwa [show s.instrJalr = false from hf.jalr.trans (decide_eq_false h1), show s.instrRetirq = false from hf.retirq.trans (decide_eq_false h2),
    Bool.or_self, if_neg Bool.false_ne_true] at hfetch

theorem still (h1 : k = .jalr ∨ k = .retirq) : Still s := by
  have hf : Flags k s.toDecodeFirst s.toDecodeSecond := hk ▸ h.insn.flags
  have hfetch := h.fetch
  have hor : (s.instrJalr || s.instrRetirq) = true := by
    rw [show s.instrJalr = _ from hf.jalr, show s.instrRetirq = _ from hf.retirq]
    rcases h1 with rfl | rfl <;> rfl
  rwa [hor, if_pos rfl] at hfetch

end ReadsOperands

theorem ne_of_ldRs1 (h : s.cpuState = .ldRs1) : s.cpuState ≠ .fetch := by
  rw [h]
  exact CpuState.noConfusion

/-- An instruction ends that only moves data between registers. -/
theorem ReadsOperands.moves (h : ReadsOperands code a s) (hc : Answers code s i) {k : Kind} (hk : (insnAt code a.pc).kind = k)
    (h1 : k ≠ .jalr) (h2 : k ≠ .retirq) (hw : k ≠ .waitirq) (hq : Sequential (s.ldRs1Of k i (s.defaults true i)) s i)
    (hr : (s.ldRs1Of k i (s.defaults true i)).memDoRinst = s.memDoRinst)
    (hp : (s.ldRs1Of k i (s.defaults true i)).pcpiValid = s.pcpiValid)
    (ht : (s.ldRs1Of k i (s.defaults true i)).pcpiTimeoutCounter = (s.defaults true i).pcpiTimeoutCounter) (u : Word32) (b : Arch)
    (he : a.exec (lengthAt code a.pc) u (insnAt code a.pc) = (none, b))
    (hy : Yields code a (s.ldRs1Of k i (s.defaults true i)) b) : Advances code a s i := by
  have hm := h.main (i := i) hk
  have ha := h.ahead hk h1 h2
  have hpcpi : PcpiQuiet (s.step true i) := h.pcpi.rest.step hm (hp.trans h.pcpi.valid) ht
  have hphase := h.toDecodes.ends (ne_of_ldRs1 h.state) ha hc hm hq hr (q := s.memDoRinst) (fun h0 => by cases h0) hpcpi.rest
    (fun h0 => by cases h0) hy
  refine advances_of_insn u h.stopped (fun rd hi => ?_) ?_ hphase
  · rw [hi] at hk
    exact absurd hk.symm hw
  · rw [he, ha.fetching.no_access]

/-- What goes to the register that the instruction names. -/
theorem ReadsOperands.value (h : ReadsOperands code a s) {rd : Reg} (hrd : s.decodedRd = rd.setWidth 6) (x : Word32) :
    (a.write s.latchedRd (if s.latchedStalu then (s.defaults true i).aluOutQ else x)).regs = (a.write (rd.setWidth 6) x).regs := by
  rw [h.stalu, if_neg Bool.false_ne_true, h.rd, hrd]

theorem ReadsOperands.counter (h : ReadsOperands code a s) (hc : Answers code s i) {c : Counter} {rd : Reg}
    (hi : insnAt code a.pc = .base (.counter c rd)) : Advances code a s i := by
  have hops := h.insn.operands
  rw [hi] at hops
  exact h.moves hc (k := .counter c) (by rw [hi]; rfl) Kind.noConfusion Kind.noConfusion Kind.noConfusion
    ⟨rfl, rfl, h.branch, ⟨rfl, rfl, h.rdata, h.wdata⟩, rfl, rfl, rfl, rfl, rfl⟩ rfl rfl rfl
    (s.ldRs1Of (.counter c) i (s.defaults true i)).regOut (a.result (lengthAt code a.pc) rd _) (by rw [hi]; rfl)
    ⟨h.stopped, h.mask, rfl, rfl, (h.value hops _).symm⟩

theorem ReadsOperands.timer (h : ReadsOperands code a s) (hc : Answers code s i) {rd rs1 : Reg}
    (hi : insnAt code a.pc = .timer rd rs1) : Advances code a s i := by
  have hops := h.insn.operands
  rw [hi] at hops
  exact h.moves hc (k := .timer) (by rw [hi]; rfl) Kind.noConfusion Kind.noConfusion Kind.noConfusion
    ⟨rfl, rfl, h.branch, ⟨rfl, rfl, h.rdata, h.wdata⟩, rfl, rfl, rfl, rfl, rfl⟩ rfl rfl rfl
    s.timer (a.result (lengthAt code a.pc) rd s.timer) (by rw [hi]; rfl)
    ⟨h.stopped, h.mask, rfl, rfl, (h.value hops.1 _).symm⟩

theorem ReadsOperands.maskirq (h : ReadsOperands code a s) (hc : Answers code s i) {rd rs1 : Reg}
    (hi : insnAt code a.pc = .maskirq rd rs1) : Advances code a s i := by
  have hops := h.insn.operands
  rw [hi] at hops
  have hmask : s.cpuregsRs1 i ||| maskedIrq = a.x rs1 := by
    rw [cpuregsRs1_eq h.regs hops.2]
    exact BitVec.or_zero
  refine h.moves hc (k := .maskirq) (by rw [hi]; rfl) Kind.noConfusion Kind.noConfusion Kind.noConfusion
    ⟨rfl, rfl, h.branch, ⟨rfl, rfl, h.rdata, h.wdata⟩, rfl, rfl, rfl, rfl, rfl⟩ rfl rfl rfl
    0 { a.result (lengthAt code a.pc) rd a.irqMask with irqMask := a.x rs1 } (by rw [hi]; rfl) ⟨h.stopped, hmask, rfl, rfl, ?_⟩
  rw [← h.mask]
  exact (h.value hops.1 _).symm

theorem toNat_qreg (q : Reg) : ((1#1 ++ q : BitVec 6)).toNat = 32 + q.toNat := by
  have h := q.isLt
  rw [BitVec.toNat_append, ← Nat.shiftLeft_add_eq_or_of_lt h]
  rfl

theorem qreg_ne_zero (q : Reg) : (1#1 ++ q : BitVec 6) ≠ 0 := by
  intro h
  have h' := congrArg BitVec.toNat h
  rw [toNat_qreg] at h'
  exact absurd h' (by simp)

theorem ReadsOperands.getq (h : ReadsOperands code a s) (hc : Answers code s i) {rd q : Reg}
    (hi : insnAt code a.pc = .getq rd q) : Advances code a s i := by
  have hops := h.insn.operands
  rw [hi] at hops
  have hread : s.cpuregsRs1 i = if (1#1 ++ q : BitVec 6).toNat < 36 then a.regs (1#1 ++ q) else i.undef.cpureg := by
    rw [cpuregsRs1, show s.decodedRs1 = 1#1 ++ q from hops.2, cpureg, if_neg (qreg_ne_zero q), h.regs]
    rfl
  refine h.moves hc (k := .getq) (by rw [hi]; rfl) Kind.noConfusion Kind.noConfusion Kind.noConfusion
    ⟨rfl, rfl, h.branch, ⟨rfl, rfl, h.rdata, h.wdata⟩, rfl, rfl, rfl, rfl, rfl⟩ rfl rfl rfl
    i.undef.cpureg (a.result (lengthAt code a.pc) rd _) (by rw [hi]; rfl) ⟨h.stopped, h.mask, rfl, rfl, ?_⟩
  rw [← hread]
  exact (h.value hops.1 _).symm

theorem qreg_or (q : Reg) : q.setWidth 6 ||| irqregsOffset = 1#1 ++ q := by
  revert q
  decide

theorem ReadsOperands.setq (h : ReadsOperands code a s) (hc : Answers code s i) {q rs1 : Reg}
    (hi : insnAt code a.pc = .setq q rs1) : Advances code a s i := by
  have hops := h.insn.operands
  rw [hi] at hops
  refine h.moves hc (k := .setq) (by rw [hi]; rfl) Kind.noConfusion Kind.noConfusion Kind.noConfusion
    ⟨rfl, rfl, h.branch, ⟨rfl, rfl, h.rdata, h.wdata⟩, rfl, rfl, rfl, rfl, rfl⟩ rfl rfl rfl
    0 { a.write (1#1 ++ q) (a.x rs1) with pc := a.pc + lengthAt code a.pc } (by rw [hi]; rfl) ⟨h.stopped, h.mask, rfl, rfl, ?_⟩
  change _ = (a.write (s.latchedRd ||| irqregsOffset) (if s.latchedStalu then _ else s.cpuregsRs1 i)).regs
  rw [h.stalu, if_neg Bool.false_ne_true, h.rd, show s.decodedRd = _ from hops.1, qreg_or, cpuregsRs1_eq h.regs hops.2]

/-! ## Back from an interrupt -/

/-- A jump that begins no fetch by itself: the next cycle does. -/
theorem Still.lands (h : Still s) (hcalm : Calm s) (hn : NoData s) (hm : (s.step true i).toMain = s.finish true i t)
    (hbetween : Between b (s.step true i)) (hb : t.latchedBranch = true) (hp : t.memDoPrefetch = s.memDoPrefetch)
    (hr : t.memDoRinst = s.memDoRinst) (hset : t.setMemDoRinst = false) (htrig : t.decoderTrigger = (s.memDoRinst && s.memDone true i))
    (hw : t.doWaitirq = false) (hpcpi : PcpiRest (s.step true i)) : Phase code b (s.step true i) := by
  have hdone := h.memDone (i := i)
  have hbranch : (s.step true i).latchedBranch = true := (congrArg Main.latchedBranch hm).trans hb
  refine .fetch
    { toBetween := hbetween
      trigger := (congrArg Main.decoderTrigger hm).trans (htrig.trans ?_)
      waitirq := (congrArg Main.doWaitirq hm).trans hw
      pcpi := hpcpi
      fetch := .inl ⟨?_, ?_, (h.idle.rest hcalm hn.rdata hn.wdata).1, .inl (by rw [jumps, hbranch, Bool.true_or])⟩ }
  · rw [hdone, Bool.and_false]
  · rw [memDoPrefetch_of hm, hdone, hp, h.prefetch, Bool.and_false]
  · rw [memDoRinst_of hm, hdone, hset, hr, h.rinst, Bool.and_false, Bool.or_false]

theorem ReadsOperands.retirq (h : ReadsOperands code a s) {rd : Reg} (hi : insnAt code a.pc = .retirq rd) : Advances code a s i := by
  have hk : (insnAt code a.pc).kind = .retirq := by rw [hi]; rfl
  have hops := h.insn.operands
  rw [hi] at hops
  have hm := h.main (i := i) hk
  have hstill := h.still hk (.inr rfl)
  have hread : s.cpuregsRs1 i = a.regs 32 := by
    rw [cpuregsRs1, show s.decodedRs1 = 32 from hops.2, cpureg_eq h.regs (by decide)]
    rfl
  have hbetween : Between { a.jump (lengthAt code a.pc) rd (a.regs 32 &&& ~~~1) with irqActive := false } (s.step true i) := by
    refine .of_jump hm h.toRunning (ne_of_ldRs1 h.state) h.toDecodes.busError h.regs h.irqState rfl rfl rfl rfl rfl rfl rfl
      (Vars.WantsNoData.step ⟨rfl, rfl, h.rdata, h.wdata⟩ hm) h.stopped h.mask rfl ?_ ?_
    · change (if s.latchedStalu then s.aluOut i else s.cpuregsRs1 i &&& 0xFFFFFFFE) &&& ~~~1 = a.regs 32 &&& ~~~1
      rw [h.stalu, if_neg Bool.false_ne_true, hread, BitVec.and_assoc]
      rfl
    · change (a.write s.latchedRd _).regs = _
      rw [h.rd, show s.decodedRd = rd.setWidth 6 from hops.1, h.pc, h.length]
      rfl
  have hphase : Phase code _ (s.step true i) := hstill.lands (hstill.calm h.toRunning h.branch h.irqState) h.toNoData hm hbetween rfl rfl rfl rfl rfl rfl
    (h.pcpi.rest.step hm h.pcpi.valid rfl).rest
  refine advances_of_insn 0 h.stopped (fun _ hw => by rw [hi] at hw; cases hw) ?_ hphase
  rw [hi, hstill.idle.no_access]
  rfl

/-! ## An instruction that needs another state -/

/-- What the first edge of an instruction leaves alone. -/
structure Onward (t : Vars) (s : Core) (i : CoreIn) : Prop where
  frame : frame t.toMain = Core.frame (s.defaults true i).toMain
  branch : t.latchedBranch = false
  stalu : t.latchedStalu = s.latchedStalu
  noData : t.WantsNoData
  trigger : t.decoderTrigger = (s.memDoRinst && s.memDone true i)
  counter : t.pcpiTimeoutCounter = (s.defaults true i).pcpiTimeoutCounter
  prefetch : t.memDoPrefetch = s.memDoPrefetch
  set : t.setMemDoRinst = false

theorem Decodes.second (h : Decodes code a s) : (s.step true i).toDecodeSecond = s.toDecodeSecond :=
  toDecodeSecond_step (by rw [Core.decodes, h.trigger, Bool.false_and])

/-- A prefetch does not bring in an instruction. -/
theorem Ahead.not_done (ha : Ahead code a s false) (h : Decodes code a s) (hc : Answers code s i) : s.memDone true i = false :=
  (ha.fetching.sequel (h.toExecuting.asks ha.prefetch h.rdata h.wdata) hc ha.rinst).1

section Goes

variable (hm : (s.step true i).toMain = s.finish true i t) (ho : Onward t s i)

include hm ho

theorem Onward.decodes (h : Decodes code a s) (hs : s.cpuState ≠ .fetch) (hdone : (s.memDoRinst && s.memDone true i) = false) :
    Decodes code a (s.step true i) :=
  h.step hm ho.frame hs ho.branch hdone ho.trigger (ho.stalu.trans h.stalu) ⟨ho.noData.setRdata, ho.noData.rdata⟩
    ⟨ho.noData.setWdata, ho.noData.wdata⟩

/-- The next instruction is fetched meanwhile. -/
theorem Onward.ahead (h : Decodes code a s) (hs : s.cpuState ≠ .fetch) {r q : Bool} (ha : Ahead code a s r)
    (hdone : s.memDone true i = false) (hc : Answers code s i) (hr : t.memDoRinst = q) (hr' : r = true → q = true) :
    Ahead code a (s.step true i) q := by
  have hask := h.toExecuting.asks ha.prefetch h.rdata h.wdata
  have hf : Fetching code (a.pc + lengthAt code a.pc) s.memDoRinst s := ha.rinst.symm ▸ ha.fetching
  have hj : (s.step true i).jumps = false := (ho.decodes hm h hs (by rw [hdone, Bool.and_false])).toExecuting.jumps
  rcases hf.step (q := q) hask hc (fun h0 => hr' (ha.rinst ▸ h0)) hj with ⟨-, hf'⟩ | hf'
  · refine ⟨?_, ?_, hf'⟩
    · rw [memDoPrefetch_of hm, hdone, ho.prefetch, ha.prefetch]
      rfl
    · rw [memDoRinst_of hm, hdone, ho.set, hr]
      rfl
  · cases hdone.symm.trans hf'.done

omit ho in
theorem latchedStore_of (hl : t.latchedStore = s.latchedStore) (h : s.latchedStore = false) : (s.step true i).latchedStore = false :=
  (congrArg Main.latchedStore hm).trans (hl.trans h)

omit ho in
theorem latchedRd_of (hl : t.latchedRd = s.latchedRd) (h : s.latchedRd = s.decodedRd) (hr : s.memDoRinst = false) :
    (s.step true i).latchedRd = (s.step true i).decodedRd := by
  rw [toDecodeFirst_step (by rw [hr, Bool.false_and])]
  exact (congrArg Main.latchedRd hm).trans (hl.trans h)

theorem Onward.pcpi (h : PcpiQuiet s) (hv : t.pcpiValid = s.pcpiValid) : PcpiQuiet (s.step true i) :=
  h.rest.step hm (hv.trans h.valid) ho.counter

end Goes

theorem ReadsOperands.classed_step (h : ReadsOperands code a s) (hr : s.memDoRinst = false) : Classed (s.step true i) :=
  Core.classed_step (by rw [decodes, h.trigger, Bool.false_and]) (by rw [hr, Bool.false_and])

section Kinds

variable (h : ReadsOperands code a s) (hc : Answers code s i)

include h hc in
/-- The arithmetic unit gets its operands. -/
theorem ReadsOperands.computes {k : Kind} (hk : (insnAt code a.pc).kind = k) (h1 : k ≠ .jalr) (h2 : k ≠ .retirq)
    (ho : Onward (s.ldRs1Of k i (s.defaults true i)) s i)
    (hl : (s.ldRs1Of k i (s.defaults true i)).latchedStore = s.latchedStore)
    (hrd : (s.ldRs1Of k i (s.defaults true i)).latchedRd = s.latchedRd) (hv : (s.ldRs1Of k i (s.defaults true i)).pcpiValid = s.pcpiValid)
    (hstate : (s.ldRs1Of k i (s.defaults true i)).cpuState = .exec)
    (hr : (s.ldRs1Of k i (s.defaults true i)).memDoRinst = s.memDoPrefetch)
    (hops : ExecOperands a (s.step true i) (insnAt code a.pc)) : Advances code a s i := by
  have hm := h.main (i := i) hk
  have ha := h.ahead hk h1 h2
  have hflags : Flags k s.toDecodeFirst s.toDecodeSecond := hk ▸ h.insn.flags
  obtain ⟨-, hseq⟩ := ha.fetching.sequel (h.toExecuting.asks ha.prefetch h.rdata h.wdata) hc ha.rinst
  have hnext := ho.ahead hm h.toDecodes (ne_of_ldRs1 h.state) ha (ha.not_done h.toDecodes hc) hc (hr.trans ha.prefetch) fun h0 => by cases h0
  refine advances_of_phase ha.fetching.no_access (.computes
    { toDecodes := ho.decodes hm h.toDecodes (ne_of_ldRs1 h.state) (by rw [ha.rinst, Bool.false_and])
      state := (cpuState_of hm h.toDecodes.busError).trans hstate
      store := latchedStore_of hm hl h.store
      rd := latchedRd_of hm hrd h.rd ha.rinst
      pcpi := ho.pcpi hm h.pcpi hv
      classed := h.classed_step ha.rinst
      operands := hops
      fetch := ?_ })
  rw [toDecodeFirst_step (by rw [ha.rinst, Bool.false_and]), show s.instrJalr = false from hflags.jalr.trans (decide_eq_false h1),
    if_neg Bool.false_ne_true]
  exact ⟨hnext.prefetch, hnext.rinst, hseq⟩

include h hc in
theorem ReadsOperands.lui {rd : Reg} {imm : Word32} (hi : insnAt code a.pc = .base (.lui rd imm)) : Advances code a s i := by
  have hk : (insnAt code a.pc).kind = .lui := by rw [hi]; rfl
  have hops := h.insn.operands
  rw [hi] at hops
  refine h.computes hc hk Kind.noConfusion Kind.noConfusion
    ⟨rfl, h.branch, rfl, ⟨rfl, rfl, h.rdata, h.wdata⟩, rfl, rfl, rfl, rfl⟩ rfl rfl rfl rfl rfl ?_
  rw [hi]
  exact ⟨congrArg Main.regOp1 (h.main hk), (congrArg Main.regOp2 (h.main hk)).trans hops.2⟩

include h hc in
theorem ReadsOperands.auipc {rd : Reg} {imm : Word32} (hi : insnAt code a.pc = .base (.auipc rd imm)) : Advances code a s i := by
  have hk : (insnAt code a.pc).kind = .auipc := by rw [hi]; rfl
  have hops := h.insn.operands
  rw [hi] at hops
  refine h.computes hc hk Kind.noConfusion Kind.noConfusion
    ⟨rfl, h.branch, rfl, ⟨rfl, rfl, h.rdata, h.wdata⟩, rfl, rfl, rfl, rfl⟩ rfl rfl rfl rfl rfl ?_
  rw [hi]
  exact ⟨(congrArg Main.regOp1 (h.main hk)).trans h.pc, (congrArg Main.regOp2 (h.main hk)).trans hops.2⟩

include h hc in
theorem ReadsOperands.imm {op : ImmOp} {rd rs1 : Reg} {imm : Word32} (hi : insnAt code a.pc = .base (.imm op rd rs1 imm)) :
    Advances code a s i := by
  have hk : (insnAt code a.pc).kind = .imm op := by rw [hi]; rfl
  have hops := h.insn.operands
  rw [hi] at hops
  refine h.computes hc hk Kind.noConfusion Kind.noConfusion
    ⟨rfl, h.branch, rfl, ⟨rfl, rfl, h.rdata, h.wdata⟩, rfl, rfl, rfl, rfl⟩ rfl rfl rfl rfl rfl ?_
  rw [hi]
  exact ⟨(congrArg Main.regOp1 (h.main hk)).trans (cpuregsRs1_eq h.regs hops.2.1), (congrArg Main.regOp2 (h.main hk)).trans hops.2.2⟩

include h hc in
theorem ReadsOperands.alu {op : AluOp} {rd rs1 rs2 : Reg} (hi : insnAt code a.pc = .base (.alu op rd rs1 rs2)) :
    Advances code a s i := by
  have hk : (insnAt code a.pc).kind = .alu op := by rw [hi]; rfl
  have hops := h.insn.operands
  rw [hi] at hops
  refine h.computes hc hk Kind.noConfusion Kind.noConfusion
    ⟨rfl, h.branch, rfl, ⟨rfl, rfl, h.rdata, h.wdata⟩, rfl, rfl, rfl, rfl⟩ rfl rfl rfl rfl rfl ?_
  rw [hi]
  exact ⟨(congrArg Main.regOp1 (h.main hk)).trans (cpuregsRs1_eq h.regs hops.2.1),
    (congrArg Main.regOp2 (h.main hk)).trans (cpuregsRs2_eq h.regs hops.2.2)⟩

include h hc in
theorem ReadsOperands.branch' {op : BranchOp} {rs1 rs2 : Reg} {imm : Word32} (hi : insnAt code a.pc = .base (.branch op rs1 rs2 imm)) :
    Advances code a s i := by
  have hk : (insnAt code a.pc).kind = .branch op := by rw [hi]; rfl
  have hops := h.insn.operands
  rw [hi] at hops
  refine h.computes hc hk Kind.noConfusion Kind.noConfusion
    ⟨rfl, h.branch, rfl, ⟨rfl, rfl, h.rdata, h.wdata⟩, rfl, rfl, rfl, rfl⟩ rfl rfl rfl rfl rfl ?_
  rw [hi]
  exact ⟨(congrArg Main.regOp1 (h.main hk)).trans (cpuregsRs1_eq h.regs hops.1),
    (congrArg Main.regOp2 (h.main hk)).trans (cpuregsRs2_eq h.regs hops.2.1)⟩

include h hc in
theorem ReadsOperands.fence {rd : Reg} (hi : insnAt code a.pc = .base (.fence rd)) : Advances code a s i := by
  have hk : (insnAt code a.pc).kind = .fence := by rw [hi]; rfl
  refine h.computes hc hk Kind.noConfusion Kind.noConfusion
    ⟨rfl, h.branch, rfl, ⟨rfl, rfl, h.rdata, h.wdata⟩, rfl, rfl, rfl, rfl⟩ rfl rfl rfl rfl rfl ?_
  rw [hi]
  exact trivial

include h in
theorem ReadsOperands.jalr {rd rs1 : Reg} {imm : Word32} (hi : insnAt code a.pc = .base (.jalr rd rs1 imm)) : Advances code a s i := by
  have hk : (insnAt code a.pc).kind = .jalr := by rw [hi]; rfl
  have hm := h.main (i := i) hk
  have hops := h.insn.operands
  rw [hi] at hops
  have hstill := h.still hk (.inl rfl)
  have hcalm : Calm s := hstill.calm h.toRunning h.branch h.irqState
  obtain ⟨hidle, -⟩ := hstill.idle.rest (i := i) hcalm h.rdata h.wdata
  have hdone := hstill.memDone (i := i)
  have ho : Onward (s.ldRs1Of .jalr i (s.defaults true i)) s i :=
    ⟨rfl, h.branch, rfl, ⟨rfl, rfl, h.rdata, h.wdata⟩, rfl, rfl, rfl, rfl⟩
  have hflags : Flags .jalr s.toDecodeFirst s.toDecodeSecond := hk ▸ h.insn.flags
  refine advances_of_phase hstill.idle.no_access (.computes
    { toDecodes := ho.decodes hm h.toDecodes (ne_of_ldRs1 h.state) (by rw [hstill.rinst, Bool.false_and])
      state := cpuState_of hm h.toDecodes.busError
      store := latchedStore_of hm rfl h.store
      rd := latchedRd_of hm rfl h.rd hstill.rinst
      pcpi := ho.pcpi hm h.pcpi rfl
      classed := h.classed_step hstill.rinst
      operands := ?_
      fetch := ?_ })
  · rw [hi]
    exact ⟨(congrArg Main.regOp1 hm).trans (cpuregsRs1_eq h.regs hops.2.1), (congrArg Main.regOp2 hm).trans hops.2.2⟩
  · rw [toDecodeFirst_step (by rw [hstill.rinst, Bool.false_and]), show s.instrJalr = true from hflags.jalr, if_pos rfl]
    refine ⟨?_, ?_, hidle⟩
    · rw [memDoPrefetch_of hm, hdone]
      exact hstill.prefetch
    · rw [memDoRinst_of hm, hdone]
      exact hstill.prefetch

/-! ### Shifts -/

include h hc in
theorem ReadsOperands.shiftImm {op : ShiftOp} {rd rs1 : Reg} {shamt : BitVec 5}
    (hi : insnAt code a.pc = .base (.shiftImm op rd rs1 shamt)) : Advances code a s i := by
  have hk : (insnAt code a.pc).kind = .shiftImm op := by rw [hi]; rfl
  have hm := h.main (i := i) hk
  have ha := h.ahead hk Kind.noConfusion Kind.noConfusion
  have hops := h.insn.operands
  rw [hi] at hops
  have ho : Onward (s.ldRs1Of (.shiftImm op) i (s.defaults true i)) s i :=
    ⟨rfl, h.branch, rfl, ⟨rfl, rfl, h.rdata, h.wdata⟩, rfl, rfl, rfl, rfl⟩
  refine advances_of_phase ha.fetching.no_access (.shifts
    { toDecodes := ho.decodes hm h.toDecodes (ne_of_ldRs1 h.state) (by rw [ha.rinst, Bool.false_and])
      state := cpuState_of hm h.toDecodes.busError
      pcpi := ho.pcpi hm h.pcpi rfl
      result := ⟨op, rd, _, .inl hk, fun len u => by rw [hi]; rfl, (congrArg Main.latchedRd hm).trans (h.rd.trans hops.1), ?_⟩
      fetch := ho.ahead hm h.toDecodes (ne_of_ldRs1 h.state) ha (ha.not_done h.toDecodes hc) hc ha.rinst fun h0 => h0 })
  rw [show (s.step true i).regOp1 = a.x rs1 from (congrArg Main.regOp1 hm).trans (cpuregsRs1_eq h.regs hops.2.1),
    show (s.step true i).regSh = shamt from (congrArg Main.regSh hm).trans hops.2.2]

include h hc in
theorem ReadsOperands.shift {op : ShiftOp} {rd rs1 rs2 : Reg} (hi : insnAt code a.pc = .base (.shift op rd rs1 rs2)) :
    Advances code a s i := by
  have hk : (insnAt code a.pc).kind = .shift op := by rw [hi]; rfl
  have hm := h.main (i := i) hk
  have ha := h.ahead hk Kind.noConfusion Kind.noConfusion
  have hops := h.insn.operands
  rw [hi] at hops
  have ho : Onward (s.ldRs1Of (.shift op) i (s.defaults true i)) s i :=
    ⟨rfl, h.branch, rfl, ⟨rfl, rfl, h.rdata, h.wdata⟩, rfl, rfl, rfl, rfl⟩
  have hsh : (s.step true i).regSh.toNat = (a.x rs2).toNat % 32 := by
    rw [show (s.step true i).regSh = (s.cpuregsRs2 i).setWidth 5 from (congrArg Main.regSh hm).trans rfl, cpuregsRs2_eq h.regs hops.2.2,
      BitVec.toNat_setWidth]
  refine advances_of_phase ha.fetching.no_access (.shifts
    { toDecodes := ho.decodes hm h.toDecodes (ne_of_ldRs1 h.state) (by rw [ha.rinst, Bool.false_and])
      state := cpuState_of hm h.toDecodes.busError
      pcpi := ho.pcpi hm h.pcpi rfl
      result := ⟨op, rd, _, .inr hk, fun len u => by rw [hi]; rfl, (congrArg Main.latchedRd hm).trans (h.rd.trans hops.1), ?_⟩
      fetch := ho.ahead hm h.toDecodes (ne_of_ldRs1 h.state) ha (ha.not_done h.toDecodes hc) hc ha.rinst fun h0 => h0 })
  rw [show (s.step true i).regOp1 = a.x rs1 from (congrArg Main.regOp1 hm).trans (cpuregsRs1_eq h.regs hops.2.1), hsh]

/-! ### Loads and stores -/

include h hc in
theorem ReadsOperands.load {op : LoadOp} {rd rs1 : Reg} {imm : Word32} (hi : insnAt code a.pc = .base (.load op rd rs1 imm)) :
    Advances code a s i := by
  have hk : (insnAt code a.pc).kind = .load op := by rw [hi]; rfl
  have hm := h.main (i := i) hk
  have ha := h.ahead hk Kind.noConfusion Kind.noConfusion
  have hops := h.insn.operands
  rw [hi] at hops
  have ho : Onward (s.ldRs1Of (.load op) i (s.defaults true i)) s i :=
    ⟨rfl, h.branch, rfl, ⟨rfl, rfl, h.rdata, h.wdata⟩, rfl, rfl, rfl, rfl⟩
  refine advances_of_phase ha.fetching.no_access (.loadFetches
    { toDecodes := ho.decodes hm h.toDecodes (ne_of_ldRs1 h.state) (by rw [ha.rinst, Bool.false_and])
      state := cpuState_of hm h.toDecodes.busError
      pcpi := ho.pcpi hm h.pcpi rfl
      classed := h.classed_step ha.rinst
      operands := ⟨op, rd, rs1, ?_, (congrArg Main.regOp1 hm).trans (cpuregsRs1_eq h.regs hops.2.1),
        (congrArg Main.latchedRd hm).trans (h.rd.trans hops.1)⟩
      fetch := ho.ahead hm h.toDecodes (ne_of_ldRs1 h.state) ha (ha.not_done h.toDecodes hc) hc rfl fun _ => rfl })
  rw [hi, show (s.step true i).decodedImm = imm from (congrArg DecodeSecond.decodedImm h.toDecodes.second).trans hops.2.2]

include h hc in
theorem ReadsOperands.store' {op : StoreOp} {rs1 rs2 : Reg} {imm : Word32} (hi : insnAt code a.pc = .base (.store op rs1 rs2 imm)) :
    Advances code a s i := by
  have hk : (insnAt code a.pc).kind = .store op := by rw [hi]; rfl
  have hm := h.main (i := i) hk
  have ha := h.ahead hk Kind.noConfusion Kind.noConfusion
  have hops := h.insn.operands
  rw [hi] at hops
  have ho : Onward (s.ldRs1Of (.store op) i (s.defaults true i)) s i :=
    ⟨rfl, h.branch, rfl, ⟨rfl, rfl, h.rdata, h.wdata⟩, rfl, rfl, rfl, rfl⟩
  refine advances_of_phase ha.fetching.no_access (.storeFetches
    { toDecodes := ho.decodes hm h.toDecodes (ne_of_ldRs1 h.state) (by rw [ha.rinst, Bool.false_and])
      state := cpuState_of hm h.toDecodes.busError
      store := latchedStore_of hm rfl h.store
      pcpi := ho.pcpi hm h.pcpi rfl
      operands := ⟨op, rs1, rs2, ?_, (congrArg Main.regOp1 hm).trans (cpuregsRs1_eq h.regs hops.1),
        (congrArg Main.regOp2 hm).trans (cpuregsRs2_eq h.regs hops.2.1)⟩
      fetch := ho.ahead hm h.toDecodes (ne_of_ldRs1 h.state) ha (ha.not_done h.toDecodes hc) hc rfl fun _ => rfl })
  rw [hi, show (s.step true i).decodedImm = imm from (congrArg DecodeSecond.decodedImm h.toDecodes.second).trans hops.2.2]

end Kinds

end Core

end RiscvSoc.Cpu
