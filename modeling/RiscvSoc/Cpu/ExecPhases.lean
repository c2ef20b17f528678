import RiscvSoc.Cpu.OperandPhases
/-!
# The arithmetic unit and the shifter

A result takes one cycle and a shift one for each of its parts. A branch that is taken has to
wait for the fetch behind it, which cannot be taken back.
-/

namespace RiscvSoc.Cpu

open Rv32

namespace Core

variable {code : Word32 → Word32} {a : Arch} {s : Core} {i : CoreIn} {target : Word32}

/-! ## `cpu_state_exec` -/

theorem ne_of_exec (h : s.cpuState = .exec) : s.cpuState ≠ .fetch := by
  rw [h]
  exact CpuState.noConfusion

theorem main_result (hs : s.cpuState = .exec) (hb : s.isBeqBneBltBgeBltuBgeu = false) :
    (s.step true i).toMain = s.finish true i { s.defaults true i with
      regOut := s.regPc + s.decodedImm
      latchedBranch := s.instrJalr
      latchedStore := true
      latchedStalu := true
      cpuState := .fetch } := by
  rw [toMain_step, fsm, hs]
  refine congrArg _ ?_
  unfold exec
  simp only [hb, Bool.false_eq_true, ↓reduceIte]

/-- A branch, which is taken or not. -/
theorem main_branch (hs : s.cpuState = .exec) (hb : s.isBeqBneBltBgeBltuBgeu = true) {taken : Bool} (ht : s.aluOut0 i = taken) :
    (s.step true i).toMain = s.finish true i { s.defaults true i with
      regOut := s.regPc + s.decodedImm
      latchedRd := 0
      latchedStore := taken
      latchedBranch := taken
      cpuState := if s.memDone true i then .fetch else .exec
      decoderTrigger := if taken then false else (s.defaults true i).decoderTrigger
      setMemDoRinst := taken } := by
  rw [toMain_step, fsm, hs]
  refine congrArg _ ?_
  unfold exec
  simp only [hb, ht, hs, ↓reduceIte]

/-! ## Results -/

theorem Computes.ahead (h : Computes code a s) (hj : s.instrJalr = false) : Ahead code a s true := by
  have hfetch := h.fetch
  rw [hj, if_neg Bool.false_ne_true] at hfetch
  exact ⟨hfetch.1, hfetch.2.1, hfetch.2.2.fetching h.toExecuting.jumps⟩

section Results

variable (h : Computes code a s) (hc : Answers code s i)

include h hc

/-- The unit's result goes to `rd`. -/
theorem Computes.result {k : Kind} (hk : (insnAt code a.pc).kind = k) (hp : k ≠ .pcpi) (hb : k.cls ≠ .branch) (hj : k ≠ .jalr)
    (hw : k ≠ .waitirq) {rd : Reg} (hrd : s.decodedRd = rd.setWidth 6) (u : Word32)
    (he : a.exec (lengthAt code a.pc) u (insnAt code a.pc) = (none, a.result (lengthAt code a.pc) rd (s.aluOut i))) :
    Advances code a s i := by
  have hf : Flags k s.toDecodeFirst s.toDecodeSecond := hk ▸ h.insn.flags
  have hjalr : s.instrJalr = false := hf.jalr.trans (decide_eq_false hj)
  have hm := main_result (i := i) h.state ((hf.isBranch hp).trans (decide_eq_false hb))
  have ha := h.ahead hjalr
  have hpcpi : PcpiQuiet (s.step true i) := h.pcpi.rest.step hm h.pcpi.valid rfl
  have hphase := h.toDecodes.ends (b := a.result (lengthAt code a.pc) rd (s.aluOut i)) (q := true) (ne_of_exec h.state) ha hc hm
    ⟨rfl, rfl, hjalr, ⟨rfl, rfl, h.rdata, h.wdata⟩, rfl, rfl, rfl, rfl, rfl⟩ ha.rinst (fun _ => rfl) hpcpi.rest (fun _ => hpcpi)
    ⟨h.stopped, h.mask, rfl, rfl, ?_⟩
  · refine advances_of_insn u h.stopped (fun rd' hi => ?_) ?_ hphase
    · rw [hi] at hk
      exact absurd hk.symm hw
    · rw [he, ha.fetching.no_access]
  · change _ = (a.write s.latchedRd (s.aluOut i)).regs
    rw [h.rd, hrd]
    rfl

theorem Computes.lui {rd : Reg} {imm : Word32} (hi : insnAt code a.pc = .base (.lui rd imm)) : Advances code a s i := by
  have hk : (insnAt code a.pc).kind = .lui := by rw [hi]; rfl
  have hops := h.operands
  have hdec := h.insn.operands
  rw [hi] at hops hdec
  have hout : s.aluOut i = imm := by
    rw [aluOut_sum (hk ▸ h.insn.flags) h.classed rfl, hops.1, hops.2]
    exact BitVec.zero_add imm
  exact h.result hc hk Kind.noConfusion (by decide) Kind.noConfusion Kind.noConfusion hdec.1 0 (by rw [hi, hout]; rfl)

theorem Computes.auipc {rd : Reg} {imm : Word32} (hi : insnAt code a.pc = .base (.auipc rd imm)) : Advances code a s i := by
  have hk : (insnAt code a.pc).kind = .auipc := by rw [hi]; rfl
  have hops := h.operands
  have hdec := h.insn.operands
  rw [hi] at hops hdec
  have hout : s.aluOut i = a.pc + imm := by
    rw [aluOut_sum (hk ▸ h.insn.flags) h.classed rfl, hops.1, hops.2]
  exact h.result hc hk Kind.noConfusion (by decide) Kind.noConfusion Kind.noConfusion hdec.1 0 (by rw [hi, hout]; rfl)

theorem Computes.imm {op : ImmOp} {rd rs1 : Reg} {imm : Word32} (hi : insnAt code a.pc = .base (.imm op rd rs1 imm)) :
    Advances code a s i := by
  have hk : (insnAt code a.pc).kind = .imm op := by rw [hi]; rfl
  have hops := h.operands
  have hdec := h.insn.operands
  rw [hi] at hops hdec
  have hout : s.aluOut i = op.eval (a.x rs1) imm := by
    rw [aluOut_imm (hk ▸ h.insn.flags) h.classed rfl, hops.1, hops.2]
  exact h.result hc hk Kind.noConfusion Class.noConfusion Kind.noConfusion Kind.noConfusion hdec.1 0 (by rw [hi, hout]; rfl)

theorem Computes.alu {op : AluOp} {rd rs1 rs2 : Reg} (hi : insnAt code a.pc = .base (.alu op rd rs1 rs2)) : Advances code a s i := by
  have hk : (insnAt code a.pc).kind = .alu op := by rw [hi]; rfl
  have hops := h.operands
  have hdec := h.insn.operands
  rw [hi] at hops hdec
  have hout : s.aluOut i = op.eval (a.x rs1) (a.x rs2) := by
    rw [aluOut_alu (hk ▸ h.insn.flags) h.classed rfl, hops.1, hops.2]
  exact h.result hc hk Kind.noConfusion Class.noConfusion Kind.noConfusion Kind.noConfusion hdec.1 0 (by rw [hi, hout]; rfl)

/-- `fence` writes something to its `rd`. -/
theorem Computes.fence {rd : Reg} (hi : insnAt code a.pc = .base (.fence rd)) : Advances code a s i := by
  have hk : (insnAt code a.pc).kind = .fence := by rw [hi]; rfl
  have hdec := h.insn.operands
  rw [hi] at hdec
  exact h.result hc hk Kind.noConfusion Class.noConfusion Kind.noConfusion Kind.noConfusion hdec (s.aluOut i) (by rw [hi]; rfl)

omit hc in
theorem Computes.jalr {rd rs1 : Reg} {imm : Word32} (hi : insnAt code a.pc = .base (.jalr rd rs1 imm)) : Advances code a s i := by
  have hk : (insnAt code a.pc).kind = .jalr := by rw [hi]; rfl
  have hf : Flags .jalr s.toDecodeFirst s.toDecodeSecond := hk ▸ h.insn.flags
  have hops := h.operands
  have hdec := h.insn.operands
  rw [hi] at hops hdec
  have hjalr : s.instrJalr = true := hf.jalr
  have hm := main_result (i := i) h.state ((hf.isBranch Kind.noConfusion).trans rfl)
  have hstill := h.fetch
  rw [hjalr, if_pos rfl] at hstill
  have hbetween : Between (a.jump (lengthAt code a.pc) rd ((a.x rs1 + imm) &&& ~~~1)) (s.step true i) := by
    refine .of_jump hm h.toRunning (ne_of_exec h.state) h.toDecodes.busError h.regs h.irqState rfl rfl rfl rfl rfl hjalr rfl
      (Vars.WantsNoData.step ⟨rfl, rfl, h.rdata, h.wdata⟩ hm) h.stopped h.mask h.active ?_ ?_
    · change s.aluOut i &&& ~~~1 = (a.x rs1 + imm) &&& ~~~1
      rw [aluOut_sum hf h.classed rfl, hops.1, hops.2]
    · change (a.write s.latchedRd _).regs = _
      rw [h.rd, show s.decodedRd = rd.setWidth 6 from hdec.1, h.pc, h.length]
      rfl
  have hphase : Phase code _ (s.step true i) := hstill.lands (hstill.calm h.toRunning h.branch h.irqState) h.toNoData hm hbetween
    hjalr rfl rfl rfl rfl rfl (h.pcpi.rest.step hm h.pcpi.valid rfl).rest
  refine advances_of_insn 0 h.stopped (fun _ hw => by rw [hi] at hw; cases hw) ?_ hphase
  rw [hi, hstill.idle.no_access]
  rfl

end Results

/-! ## A branch that is not taken -/

section Branch

variable {op : BranchOp} {rs1 rs2 : Reg} {imm : Word32} (hi : insnAt code a.pc = .base (.branch op rs1 rs2 imm))
  (hd : Decoded (insnAt code a.pc) s.toDecodeFirst s.toDecodeSecond)

include hi hd

theorem isBranch_of : s.isBeqBneBltBgeBltuBgeu = true := by
  have hf := hd.flags
  rw [hi] at hf
  exact hf.isBranch Kind.noConfusion

theorem aluOut0_of (hcl : Classed s) (h1 : s.regOp1 = a.x rs1) (h2 : s.regOp2 = a.x rs2) :
    s.aluOut0 i = op.taken (a.x rs1) (a.x rs2) := by
  have hf := hd.flags
  rw [hi] at hf
  rw [aluOut0_branch hf hcl rfl, h1, h2]

theorem decodedImm_of : s.decodedImm = imm := by
  have hops := hd.operands
  rw [hi] at hops
  exact hops.2.2

omit hd in
theorem even_target (hpc : a.pc.getLsbD 0 = false) : (a.pc + imm).getLsbD 0 = false := by
  have he : (insnAt code a.pc).evenTarget = true := Insn.ofWord_evenTarget _
  rw [hi] at he
  exact even_add hpc ((Bool.not_eq_true' _).mp he)

end Branch

theorem FallsThrough.step (h : FallsThrough code a s) (hc : Answers code s i) : Advances code a s i := by
  obtain ⟨op, rs1, rs2, imm, hi, h1, h2, htaken⟩ := h.branches
  have hs := ne_of_exec h.state
  have hm := main_branch (i := i) h.state (isBranch_of hi h.insn) ((aluOut0_of hi h.insn h.classed h1 h2).trans htaken)
  cases hdone : s.memDone true i with
  | true =>
    rw [hdone, if_pos rfl] at hm
    have hpcpi : PcpiQuiet (s.step true i) := h.pcpi.rest.step hm h.pcpi.valid rfl
    refine advances_of_insn 0 h.stopped (fun _ hw => by rw [hi] at hw; cases hw) ?_
      (h.toDecodes.ends (b := a.next (lengthAt code a.pc)) hs h.fetch hc hm
        ⟨rfl, rfl, rfl, ⟨rfl, rfl, h.rdata, h.wdata⟩, rfl, rfl, rfl, rfl, rfl⟩ h.fetch.rinst (fun h0 => h0) hpcpi.rest (fun _ => hpcpi)
        ⟨h.stopped, h.mask, rfl, rfl, rfl⟩)
    rw [hi, h.fetch.fetching.no_access, Arch.exec, htaken, if_neg Bool.false_ne_true]
  | false =>
    rw [hdone, if_neg Bool.false_ne_true] at hm
    have hnot : (s.memDoRinst && s.memDone true i) = false := by rw [hdone, Bool.and_false]
    have hdec : s.decodes = false := by rw [decodes, h.trigger, Bool.false_and]
    have hahead := Onward.ahead hm ⟨rfl, rfl, rfl, ⟨rfl, rfl, h.rdata, h.wdata⟩, rfl, rfl, rfl, rfl⟩ h.toDecodes hs h.fetch hdone hc
      h.fetch.rinst (fun h0 => h0)
    have hnext : Decodes code a (s.step true i) :=
      Onward.decodes hm ⟨rfl, rfl, rfl, ⟨rfl, rfl, h.rdata, h.wdata⟩, rfl, rfl, rfl, rfl⟩ h.toDecodes hs hnot
    exact advances_of_phase h.fetch.fetching.no_access (.fallsThrough
      { toDecodes := hnext
        state := cpuState_of hm h.toDecodes.busError
        store := congrArg Main.latchedStore hm
        pcpi := h.pcpi.rest.step hm h.pcpi.valid rfl
        classed := classed_step hdec hnot
        branches := ⟨op, rs1, rs2, imm, hi, (congrArg Main.regOp1 hm).trans h1, (congrArg Main.regOp2 hm).trans h2, htaken⟩
        fetch := hahead })

/-! ## A branch that is taken -/

section Takes

variable (h : Takes code a s target)

include h

theorem Takes.even : target.getLsbD 0 = false := by
  obtain ⟨op, rs1, rs2, imm, hi, -, -, -, rfl⟩ := h.branches
  exact even_target hi h.evenPc

theorem Takes.main : (s.step true i).toMain = s.finish true i { s.defaults true i with
    regOut := target
    latchedRd := 0
    latchedStore := true
    latchedBranch := true
    cpuState := if s.memDone true i then .fetch else .exec
    decoderTrigger := false
    setMemDoRinst := true } := by
  obtain ⟨op, rs1, rs2, imm, hi, h1, h2, htaken, ht⟩ := h.branches
  have hm := main_branch (i := i) h.state (isBranch_of hi h.insn) ((aluOut0_of hi h.insn h.classed h1 h2).trans htaken)
  rwa [decodedImm_of hi h.insn, h.pc, ← ht, if_pos rfl] at hm

theorem Takes.busError : s.busError true = false := busError_of h.rdata h.wdata h.evenReg

/-- The fetch behind the branch is over. -/
theorem Takes.ends (hacc : s.access i = none) (hdone : s.memDone true i = true) (hidle : Idle (s.step true i)) : Advances code a s i := by
  have hm := h.main (i := i)
  rw [hdone, if_pos rfl] at hm
  have hbranch : (s.step true i).latchedBranch = true := congrArg Main.latchedBranch hm
  have hstore : (s.step true i).latchedStore = true := congrArg Main.latchedStore hm
  have hrinst : (s.step true i).memDoRinst = true := memDoRinst_of hm
  have hbetween : Between { a with pc := target } (s.step true i) := by
    refine .of_jump hm h.toRunning (ne_of_exec h.state) h.busError h.regs h.irqState rfl rfl rfl rfl rfl rfl rfl
      (Vars.WantsNoData.step ⟨rfl, rfl, h.rdata, h.wdata⟩ hm) h.stopped h.mask h.active ?_ rfl
    change (if s.latchedStalu then s.aluOut i else target) &&& ~~~1 = target
    rw [h.stalu, if_neg Bool.false_ne_true, and_not_one_of_even h.even]
  have hnext : (s.step true i).nextPc = target := by
    rw [nextPc, hbranch, hstore, Bool.and_self, if_pos rfl, show (s.step true i).regOut = target from congrArg Main.regOut hm,
      and_not_one_of_even h.even]
  obtain ⟨op, rs1, rs2, imm, hi, -, -, htaken, rfl⟩ := h.branches
  refine advances_of_insn 0 h.stopped (fun _ hw => by rw [hi] at hw; cases hw) ?_ (.fetch
    { toBetween := hbetween
      trigger := congrArg Main.decoderTrigger hm
      waitirq := congrArg Main.doWaitirq hm
      pcpi := (h.pcpi.rest.step hm h.pcpi.valid rfl).rest
      fetch := .inr ⟨⟨hbetween.trap, hbetween.rdata, hbetween.wdata, by rw [hrinst, Bool.or_true], hnext, hbetween.clear⟩, ?_⟩ })
  · rw [hi, hacc, Arch.exec, htaken, if_pos rfl]
  · rw [hrinst]
    exact .idle hidle (.inl (by rw [jumps, hbranch, Bool.true_or])) fun h0 => by cases h0

/-- It goes on, or another one begins. -/
theorem Takes.goesOn (hacc : s.access i = none) (hdone : s.memDone true i = false) (hstray : Stray target (s.step true i) ∨ Idle (s.step true i)) :
    Advances code a s i := by
  have hm := h.main (i := i)
  rw [hdone, if_neg Bool.false_ne_true] at hm
  have hnot : (s.memDoRinst && s.memDone true i) = false := by rw [hdone, Bool.and_false]
  have hdec : s.decodes = false := by rw [decodes, h.trigger, Bool.false_and]
  have hreg : (s.step true i).regPc = s.regPc := (congrArg Main.regPc hm).trans rfl
  obtain ⟨op, rs1, rs2, imm, hi, h1, h2, htaken, ht⟩ := h.branches
  exact advances_of_phase hacc (.branches target
    { stopped := h.stopped
      trap := congrArg Main.trap hm
      mask := (congrArg Main.irqMask hm).trans h.mask
      evenPc := h.evenPc
      evenReg := hreg ▸ h.evenReg
      clear := clearPrefetchedHighWordQ_step true
      toNoData := Vars.WantsNoData.step ⟨rfl, rfl, h.rdata, h.wdata⟩ hm
      state := cpuState_of hm h.busError
      irqState := (congrArg Main.irqState hm).trans h.irqState
      regs := (cpuregs_step_of_ne (ne_of_exec h.state)).trans h.regs
      pc := hreg.trans h.pc
      active := (congrArg Main.irqActive hm).trans h.active
      trigger := congrArg Main.decoderTrigger hm
      stalu := (congrArg Main.latchedStalu hm).trans h.stalu
      pcpi := h.pcpi.rest.step hm h.pcpi.valid rfl
      classed := classed_step hdec hnot
      insn := by
        rw [toDecodeFirst_step hnot, toDecodeSecond_step hdec]
        exact h.insn
      branches := ⟨op, rs1, rs2, imm, hi, (congrArg Main.regOp1 hm).trans h1, (congrArg Main.regOp2 hm).trans h2, htaken, ht⟩
      branch := congrArg Main.latchedBranch hm
      store := congrArg Main.latchedStore hm
      rinst := memDoRinst_of hm
      out := congrArg Main.regOut hm
      stray := hstray })

end Takes

theorem Branches.step (h : Branches code a s target) : Advances code a s i := by
  have hj : s.jumps = true := by rw [jumps, h.branch, Bool.true_or]
  have ha : Asks target s :=
    { trap := h.trap
      rdata := h.rdata
      wdata := h.wdata
      asks := by rw [h.rinst, Bool.or_true]
      nextPc := by rw [nextPc, h.branch, h.store, Bool.and_self, if_pos rfl, h.out, and_not_one_of_even h.even]
      clear := h.clear }
  rcases h.stray with hst | hidle
  · have hacc : s.access i = none := access_of_instr hst.instr
    rcases hst.step ha hj h.rinst with ⟨hdone, hnext⟩ | ⟨hdone, hnext⟩
    · exact h.goesOn hacc hdone hnext
    · exact h.ends hacc hdone hnext
  · obtain ⟨hdone, hnext⟩ := hidle.strays (i := i) ha hj
    exact h.goesOn hidle.no_access hdone (.inl hnext)

/-- The first cycle of a branch. -/
theorem Computes.branch' (h : Computes code a s) (hc : Answers code s i) {op : BranchOp} {rs1 rs2 : Reg} {imm : Word32}
    (hi : insnAt code a.pc = .base (.branch op rs1 rs2 imm)) : Advances code a s i := by
  have hf := h.insn.flags
  have hops := h.operands
  rw [hi] at hf hops
  have hjalr : s.instrJalr = false := hf.jalr
  have ha := h.ahead hjalr
  cases htaken : op.taken (a.x rs1) (a.x rs2) with
  | false =>
    exact FallsThrough.step ⟨h.toDecodes, h.state, h.store, h.pcpi, h.classed, ⟨op, rs1, rs2, imm, hi, hops.1, hops.2, htaken⟩, ha⟩ hc
  | true =>
    have htakes : Takes code a s (a.pc + imm) :=
      { h.toRunning, h.toNoData with
        state := h.state
        irqState := h.irqState
        regs := h.regs
        pc := h.pc
        active := h.active
        trigger := h.trigger
        stalu := h.stalu
        pcpi := h.pcpi
        classed := h.classed
        insn := h.insn
        branches := ⟨op, rs1, rs2, imm, hi, hops.1, hops.2, htaken, rfl⟩ }
    have hfetch := h.fetch
    rw [hjalr, if_neg Bool.false_ne_true] at hfetch
    have hask := h.toExecuting.asks ha.prefetch h.rdata h.wdata
    rcases hfetch.2.2.step (U := a.pc + imm) hask h.toExecuting.jumps hc ha.rinst with ⟨hdone, hst⟩ | hf'
    · exact htakes.goesOn ha.fetching.no_access hdone (.inl hst)
    · exact htakes.ends ha.fetching.no_access hf'.done hf'.idle

theorem Computes.step (h : Computes code a s) (hc : Answers code s i) : Advances code a s i := by
  have hops := h.operands
  cases hi : insnAt code a.pc with
  | base n =>
    rw [hi] at hops
    cases n with
    | lui => exact h.lui hc hi
    | auipc => exact h.auipc hc hi
    | jalr => exact h.jalr hi
    | branch => exact h.branch' hc hi
    | imm => exact h.imm hc hi
    | alu => exact h.alu hc hi
    | fence => exact h.fence hc hi
    | _ => exact hops.elim
  | _ =>
    rw [hi] at hops
    exact hops.elim

/-! ## The shifter -/

theorem ne_of_shift (h : s.cpuState = .shift) : s.cpuState ≠ .fetch := by
  rw [h]
  exact CpuState.noConfusion

theorem main_shift_done (hs : s.cpuState = .shift) (h0 : s.regSh = 0) :
    (s.step true i).toMain = s.finish true i { s.defaults true i with
      latchedStore := true
      regOut := s.regOp1
      memDoRinst := s.memDoPrefetch
      cpuState := .fetch } := by
  rw [toMain_step, fsm, hs]
  refine congrArg _ ?_
  unfold shift
  simp only [h0, ↓reduceIte]

/-- Four places at a time, and then one. -/
theorem main_shift (hs : s.cpuState = .shift) (h0 : s.regSh ≠ 0) :
    ∃ n : ℕ, n ≤ s.regSh.toNat ∧ (s.step true i).toMain = s.finish true i { s.defaults true i with
      latchedStore := true
      regOp1 := s.shiftBy n
      regSh := s.regSh - BitVec.ofNat 5 n } := by
  have hpos : 0 < s.regSh.toNat := Nat.pos_of_ne_zero fun hz => h0 (BitVec.eq_of_toNat_eq hz)
  by_cases h4 : s.regSh.toNat ≥ 4
  · refine ⟨4, h4, ?_⟩
    rw [toMain_step, fsm, hs]
    refine congrArg _ ?_
    unfold shift
    rw [if_neg h0, if_pos h4]
    rfl
  · refine ⟨1, hpos, ?_⟩
    rw [toMain_step, fsm, hs]
    refine congrArg _ ?_
    unfold shift
    rw [if_neg h0, if_neg h4]
    rfl

theorem Shifts.step (h : Shifts code a s) (hc : Answers code s i) : Advances code a s i := by
  obtain ⟨op, rd, v, hkind, hexec, hrd, hv⟩ := h.result
  have hs := ne_of_shift h.state
  have hdone := h.fetch.not_done h.toDecodes hc
  by_cases h0 : s.regSh = 0
  · have hm := main_shift_done (i := i) h.state h0
    have hout : s.regOp1 = v := by
      rw [← hv, h0]
      exact (op.eval_zero s.regOp1).symm
    have hpcpi : PcpiQuiet (s.step true i) := h.pcpi.rest.step hm h.pcpi.valid rfl
    have hphase := h.toDecodes.ends (b := a.result (lengthAt code a.pc) rd v) hs h.fetch hc hm
      ⟨rfl, rfl, h.branch, ⟨rfl, rfl, h.rdata, h.wdata⟩, rfl, rfl, rfl, rfl, rfl⟩ h.fetch.prefetch (fun _ => rfl) hpcpi.rest
      (fun _ => hpcpi) ⟨h.stopped, h.mask, rfl, rfl, ?_⟩
    · refine advances_of_insn 0 h.stopped (fun rd' hi => ?_) ?_ hphase
      · rw [hi] at hkind
        rcases hkind with hk | hk <;> cases hk
      · rw [hexec, h.fetch.fetching.no_access]
    · change _ = (a.write s.latchedRd (if s.latchedStalu then s.aluOut i else s.regOp1)).regs
      rw [h.stalu, if_neg Bool.false_ne_true, hrd, hout]
      rfl
  · obtain ⟨n, hn, hm⟩ := main_shift (i := i) h.state h0
    have hnot : (s.memDoRinst && s.memDone true i) = false := by rw [hdone, Bool.and_false]
    have hnext : Decodes code a (s.step true i) :=
      Onward.decodes hm ⟨rfl, h.branch, rfl, ⟨rfl, rfl, h.rdata, h.wdata⟩, rfl, rfl, rfl, rfl⟩ h.toDecodes hs hnot
    have hahead := Onward.ahead hm ⟨rfl, h.branch, rfl, ⟨rfl, rfl, h.rdata, h.wdata⟩, rfl, rfl, rfl, rfl⟩ h.toDecodes hs h.fetch hdone hc
      h.fetch.rinst (fun h0 => h0)
    refine advances_of_phase h.fetch.fetching.no_access (.shifts
      { toDecodes := hnext
        state := (cpuState_of hm h.toDecodes.busError).trans h.state
        pcpi := h.pcpi.rest.step hm h.pcpi.valid rfl
        result := ⟨op, rd, v, hkind, hexec, (congrArg Main.latchedRd hm).trans hrd, ?_⟩
        fetch := hahead })
    have hlt := s.regSh.isLt
    have hsub : (s.step true i).regSh.toNat = s.regSh.toNat - n := by
      rw [show (s.step true i).regSh = s.regSh - BitVec.ofNat 5 n from (congrArg Main.regSh hm).trans rfl,
        BitVec.toNat_sub_of_le (by rw [BitVec.le_def, BitVec.toNat_ofNat, Nat.mod_eq_of_lt (by omega)]; exact hn),
        BitVec.toNat_ofNat, Nat.mod_eq_of_lt (by omega)]
    rw [hsub, show (s.step true i).regOp1 = s.shiftBy n from (congrArg Main.regOp1 hm).trans rfl, shiftBy_eq h.insn.flags hkind,
      op.eval_add, Nat.add_sub_of_le hn, hv]

end Core

end RiscvSoc.Cpu
