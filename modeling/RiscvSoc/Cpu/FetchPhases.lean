import RiscvSoc.Cpu.Frames
/-!
# Between two instructions

The core waits for an instruction, starts it, or takes an interrupt instead. `jal` and
`waitirq` need no other phase.
-/

namespace RiscvSoc.Cpu

open Rv32

namespace Core

variable {code : Word32 → Word32} {a : Arch} {s : Core} {i : CoreIn} {t : Vars}

/-- The registers that say where the program is between two instructions. -/
structure Place where
  trap : Bool
  cpuState : CpuState
  regPc : Word32
  regNextPc : Word32
  latchedStore : Bool
  latchedBranch : Bool
  irqState : BitVec 2
  irqActive : Bool
  irqMask : Word32

def place (m : Main) : Place :=
  ⟨m.trap, m.cpuState, m.regPc, m.regNextPc, m.latchedStore, m.latchedBranch, m.irqState, m.irqActive, m.irqMask⟩

/-- No data is wanted by the edge. -/
structure Vars.WantsNoData (t : Vars) : Prop where
  setRdata : t.setMemDoRdata = false
  setWdata : t.setMemDoWdata = false
  rdata : t.memDoRdata = false
  wdata : t.memDoWdata = false

theorem Vars.WantsNoData.step (h : t.WantsNoData) (hm : (s.step true i).toMain = s.finish true i t) : NoData (s.step true i) where
  rdata := by rw [memDoRdata_of hm, h.setRdata, h.rdata, Bool.and_false, Bool.or_self]
  wdata := by rw [memDoWdata_of hm, h.setWdata, h.wdata, Bool.and_false, Bool.or_self]

theorem Between.busError (h : Between a s) : s.busError true = false := busError_of h.rdata h.wdata h.evenReg

section Fetch

variable (hm : (s.step true i).toMain = s.finish true i t)

include hm in
/-- The program stays where it is. -/
theorem Between.stays (h : Between a s) (hk : place t.toMain = place (s.fetchVars i).toMain) (hn : t.WantsNoData) :
    Between a (s.step true i) := by
  have hp : place (s.step true i).toMain = { place t.toMain with cpuState := (s.step true i).cpuState } :=
    (congrArg place hm).trans (by rw [show (s.step true i).cpuState = _ from congrArg Main.cpuState hm]; rfl)
  rw [hk] at hp
  have hstate : (s.step true i).cpuState = .fetch := (cpuState_of hm h.busError).trans ((congrArg Place.cpuState hk).trans h.state)
  have hirq : (s.step true i).irqState = 0 := (congrArg Place.irqState hp).trans h.irqState
  have hbranch : (s.step true i).latchedBranch = false := congrArg Place.latchedBranch hp
  have hstore : (s.step true i).latchedStore = false := congrArg Place.latchedStore hp
  have hreg : (s.step true i).regPc = a.pc := (congrArg Place.regPc hp).trans h.pc
  exact
    { stopped := h.stopped
      trap := congrArg Place.trap hp
      mask := (congrArg Place.irqMask hp).trans h.mask
      evenPc := h.evenPc
      evenReg := hreg ▸ h.evenPc
      clear := clearPrefetchedHighWordQ_step true
      toNoData := hn.step hm
      state := hstate
      irqState := hirq
      regs := (cpuregsNext_of_none (cpuregsWrite_none hstate hbranch hstore hirq)).trans h.regs
      pc := (currentPc_of_plain hbranch (.inr hirq)).trans ((congrArg Place.regNextPc hp).trans h.pc)
      active := (congrArg Place.irqActive hp).trans h.active }

end Fetch

/-- The interface rests and its buffer has the instruction to come, or is empty. -/
theorem Idle.ready {T : Word32} (h : Idle s) (hr : Ready code T s) (htrap : s.trap = false) (hp : s.memDoPrefetch = false)
    (hi : s.memDoRinst = false) (hn : NoData s) (hclear : s.clearPrefetchedHighWordQ = true → s.prefetchedHighWord = false) :
    Idle (s.step true i) ∧ Ready code T (s.step true i) := by
  have hm := memFsm_idle (i := i) htrap h.state h.valid hp hi hn.rdata hn.wdata
  refine ⟨⟨congrArg MemFsm.memState hm ▸ h.state, congrArg MemFsm.memValid hm ▸ h.valid, congrArg MemFsm.memLaSecondword hm ▸ h.second, ?_⟩, ?_⟩
  · rw [lastMemValid_step, h.valid, Bool.false_and]
  · have hpre : (s.step true i).prefetchedHighWord = s.kept s.prefetchedHighWord := congrArg MemFsm.prefetchedHighWord hm
    cases hj : s.jumps with
    | true => exact .inr (.inl (hpre.trans (kept_of_jumps hj _)))
    | false =>
      rw [kept_of_not_jumps hj hclear] at hpre
      rcases hr with h' | h' | h'
      · rw [hj] at h'; cases h'
      · exact .inr (.inl (hpre.trans h'))
      · exact .inr (.inr fun hT => ⟨hpre.trans (h' hT).1, (congrArg MemFsm.mem16bitBuffer hm).trans (h' hT).2⟩)

/-- No instruction yet: the fetch starts, goes on or ends. -/
theorem Fetches.step (h : Fetches code a s) (hc : Answers code s i) : Advances code a s i := by
  have hm := main_wait (i := i) h.state h.irqState h.trigger h.waitirq
  have hbetween : Between a (s.step true i) := h.toBetween.stays hm rfl ⟨rfl, rfl, h.rdata, h.wdata⟩
  have hpcpi : PcpiQuiet (s.step true i) := h.pcpi.step hm h.pcpi.valid rfl
  have hbr : (s.step true i).latchedBranch = false := congrArg Main.latchedBranch hm
  have hj : (s.step true i).jumps = false := jumps_eq_false hbr hbetween.irqState
  have hnext : (s.step true i).nextPc = a.pc := by
    rw [nextPc_of_plain (.inl hbr), ← currentPc_of_plain hbr (.inr hbetween.irqState), hbetween.pc]
  have hrinst : (s.step true i).memDoRinst = !s.memDone true i := by
    rw [memDoRinst_of hm]
    exact (Bool.false_or _).trans (Bool.and_true _)
  have htrigger : (s.step true i).decoderTrigger = (s.memDoRinst && s.memDone true i) := congrArg Main.decoderTrigger hm
  have hwait : (s.step true i).doWaitirq = false := congrArg Main.doWaitirq hm
  rcases h.fetch with ⟨hp, hi, hidle, hready⟩ | ⟨hask, hf⟩
  · obtain ⟨hidle', hready'⟩ := hidle.ready (i := i) hready h.trap hp hi h.toNoData h.clear
    rw [hidle.done] at hrinst
    rw [hi] at htrigger
    refine advances_of_phase hidle.no_access (.fetch
      { toBetween := hbetween
        trigger := htrigger
        waitirq := hwait
        pcpi := hpcpi.rest
        fetch := .inr ⟨⟨hbetween.trap, hbetween.rdata, hbetween.wdata, ?_, hnext, hbetween.clear⟩, ?_⟩ })
    · rw [hrinst]
      exact Bool.or_true _
    · rw [hrinst]
      exact .idle hidle' hready' fun h0 => by cases h0
  · rcases hf.step (q := true) hask hc (fun _ => rfl) hj with ⟨hdone, hf'⟩ | hf'
    · rw [hdone] at hrinst htrigger
      refine advances_of_phase hf.no_access (.fetch
        { toBetween := hbetween
          trigger := htrigger.trans (Bool.and_false _)
          waitirq := hwait
          pcpi := hpcpi.rest
          fetch := .inr ⟨⟨hbetween.trap, hbetween.rdata, hbetween.wdata, ?_, hnext, hbetween.clear⟩, ?_⟩ })
      · rw [hrinst]
        exact Bool.or_true _
      · rw [hrinst]
        exact hf'
    · rw [hf'.done] at hrinst
      rw [hf'.rinst, hf'.done] at htrigger
      have hpre : (s.step true i).memDoPrefetch = false := by
        rw [memDoPrefetch_of hm, hf'.done]
        rfl
      exact advances_of_phase hf.no_access (.dispatch
        { toBetween := hbetween
          prefetch := hpre
          rinst := hrinst
          idle := hf'.idle
          trigger := htrigger
          branch := hbr
          pcpi := hpcpi
          got := hf'.got htrigger (congrArg Main.decoderPseudoTrigger hm) })

/-! ## The instruction is there -/

theorem Still.calm (h : Still s) (hr : Running a s) (hb : s.latchedBranch = false) (hi : s.irqState = 0) : Calm s :=
  ⟨⟨h.prefetch, h.rinst⟩, hr.trap, jumps_eq_false hb hi, hr.clear⟩

/-- The interface does nothing and the decoder keeps its instruction. -/
theorem Still.step (h : Still s) (hb : Between a s) (hbr : s.latchedBranch = false) :
    Idle (s.step true i) ∧ Keeps s (s.step true i) :=
  h.idle.rest (h.calm hb.toRunning hbr hb.irqState) hb.rdata hb.wdata

theorem Still.memDone (h : Still s) : s.memDone true i = false := h.idle.done

/-- An interrupt comes first. -/
theorem Dispatches.interrupt (h : Dispatches code a s) (ht : s.takesIrq = true) : Advances code a s i := by
  have hm := main_irq (i := i) h.state h.irqState ht
  obtain ⟨hidle, -⟩ := h.toStill.step (i := i) h.toBetween h.branch
  have hdone := h.toStill.memDone (i := i)
  have hreg : (s.step true i).regPc = a.pc := (congrArg Main.regPc hm).trans h.pc
  have hmask : (s.step true i).irqMask = s.irqMask := (congrArg Main.irqMask hm).trans rfl
  rw [takesIrq_eq h.irqState] at ht
  have hbits : (s.irqActive = false ∧ s.irqDelay = false) ∧ s.irqPending &&& ~~~s.irqMask ≠ 0 := by
    simpa [h.trigger] using ht
  refine advances_of_phase h.idle.no_access (.savesPc
    { stopped := h.stopped
      trap := congrArg Main.trap hm
      mask := hmask.trans h.mask
      evenPc := h.evenPc
      evenReg := hreg ▸ h.evenPc
      clear := clearPrefetchedHighWordQ_step true
      toNoData := Vars.WantsNoData.step ⟨rfl, rfl, h.rdata, h.wdata⟩ hm
      state := (cpuState_of hm h.toBetween.busError).trans h.state
      trigger := ?_
      waitirq := congrArg Main.doWaitirq hm
      branch := congrArg Main.latchedBranch hm
      store := congrArg Main.latchedStore hm
      idle := hidle
      prefetch := ?_
      pcpi := h.pcpi.rest.step hm h.pcpi.valid rfl
      inactive := h.active.symm.trans hbits.1.1
      pending := ?_
      irqState := congrArg Main.irqState hm
      rinst := ?_
      active := (congrArg Main.irqActive hm).trans hbits.1.1
      regs := h.regs
      rd := congrArg Main.latchedRd hm
      pc := (congrArg Main.regNextPc hm).trans h.pc })
  · refine (congrArg Main.decoderTrigger hm).trans ?_
    change (s.memDoRinst && s.memDone true i) = false
    rw [h.rinst, Bool.false_and]
  · rw [memDoPrefetch_of hm, hdone]
    exact h.prefetch
  · rw [hmask]
    refine irqPending_of hm ?_
    change (s.irqPending &&& latchedIrq) &&& ~~~s.irqMask ≠ 0
    rw [show latchedIrq = BitVec.allOnes 32 from rfl, BitVec.and_allOnes]
    exact hbits.2
  · rw [memDoRinst_of hm, hdone]
    change (false || (true && (!s.decoderTrigger && _))) = false
    rw [h.trigger]
    rfl

theorem Insn.exists_waitirq {n : Insn} (h : n.kind = .waitirq) : ∃ rd, n = .waitirq rd := by
  cases n with
  | waitirq rd => exact ⟨rd, rfl⟩
  | base n => cases n <;> cases h
  | _ => cases h

theorem Insn.exists_jal {n : Insn} (h : n.kind = .jal) : ∃ rd imm, n = .base (.jal rd imm) := by
  cases n with
  | base n =>
    cases n with
    | jal rd imm => exact ⟨rd, imm, rfl⟩
    | _ => cases h
  | _ => cases h

/-- `waitirq` has an interrupt. -/
theorem waitirq_done (h : Between a s) (hstill : Still s) (hb : s.latchedBranch = false) (hpcpi : PcpiQuiet s) (hg : Got code s a.pc)
    (hn : s.takesIrq = false) (ht : (s.decoderTrigger || s.doWaitirq) = true) (hq : s.instrWaitirq = true) (hp : s.irqPending ≠ 0) :
    Advances code a s i := by
  have hm := main_waitirq_done (i := i) h.state h.irqState hn ht hq hp
  obtain ⟨hidle, hkeep⟩ := hstill.step (i := i) h hb
  have hdone := hstill.memDone (i := i)
  have hd := hg.insn i
  obtain ⟨rd, hinsn⟩ := Insn.exists_waitirq (of_decide_eq_true (hd.flags.waitirq.symm.trans hq))
  have hrd : s.decodedRd = rd.setWidth 6 := by
    have ho := hd.operands
    rw [hinsn] at ho
    exact ho
  have hreg : (s.step true i).regPc = a.pc := (congrArg Main.regPc hm).trans h.pc
  have hstate : (s.step true i).cpuState = .fetch := (cpuState_of hm h.busError).trans h.state
  have hirq : (s.step true i).irqState = 0 := (congrArg Main.irqState hm).trans h.irqState
  have hbranch : (s.step true i).latchedBranch = false := congrArg Main.latchedBranch hm
  have hnext : (s.step true i).regNextPc = a.pc + lengthAt code a.pc := by
    refine (congrArg Main.regNextPc hm).trans ?_
    change s.currentPc + s.instrLen = _
    rw [h.pc, hg.length]
  have hregs : (s.step true i).cpuregsNext true = (a.write (rd.setWidth 6) s.irqPending).regs := by
    rw [cpuregsNext_of_some (cpuregsWrite_store hstate hbranch (congrArg Main.latchedStore hm)) h.regs,
      show (s.step true i).latchedRd = rd.setWidth 6 from (congrArg Main.latchedRd hm).trans hrd,
      show (s.step true i).latchedStalu = false from congrArg Main.latchedStalu hm, if_neg Bool.false_ne_true,
      show (s.step true i).regOut = s.irqPending from (congrArg Main.regOut hm).trans rfl]
  have hbetween : Between (a.result (lengthAt code a.pc) rd s.irqPending) (s.step true i) :=
    { stopped := h.stopped
      trap := congrArg Main.trap hm
      mask := (congrArg Main.irqMask hm).trans h.mask
      evenPc := even_add h.evenPc (even_lengthAt ..)
      evenReg := hreg ▸ h.evenPc
      clear := clearPrefetchedHighWordQ_step true
      toNoData := Vars.WantsNoData.step ⟨rfl, rfl, h.rdata, h.wdata⟩ hm
      state := hstate
      irqState := hirq
      regs := hregs
      pc := (currentPc_of_plain hbranch (.inr hirq)).trans hnext
      active := (congrArg Main.irqActive hm).trans h.active }
  have hrinst : (s.step true i).memDoRinst = true := by
    rw [memDoRinst_of hm, hdone]
    rfl
  refine advances_of_insn s.irqPending h.stopped (fun _ _ => hp) ?_ (.fetch
    { toBetween := hbetween
      trigger := ?_
      waitirq := congrArg Main.doWaitirq hm
      pcpi := (hpcpi.rest.step hm hpcpi.valid rfl).rest
      fetch := .inr ⟨⟨hbetween.trap, hbetween.rdata, hbetween.wdata, ?_, (nextPc_of_plain (.inl hbranch)).trans hnext, hbetween.clear⟩, ?_⟩ })
  · rw [hinsn, hstill.idle.no_access]
    rfl
  · refine (congrArg Main.decoderTrigger hm).trans ?_
    change (s.memDoRinst && s.memDone true i) = false
    rw [hstill.rinst, Bool.false_and]
  · rw [hrinst]
    exact Bool.or_true _
  · rw [hrinst]
    exact .idle hidle (.inr (.inr (hg.buffered.keep hkeep))) fun h0 => by cases h0

/-- It waits. -/
theorem waitirq_wait (h : Between a s) (hstill : Still s) (hb : s.latchedBranch = false) (hpcpi : PcpiQuiet s) (hg : Got code s a.pc)
    (hn : s.takesIrq = false) (ht : (s.decoderTrigger || s.doWaitirq) = true) (hq : s.instrWaitirq = true) (hp : s.irqPending = 0) :
    Advances code a s i := by
  have hm := main_waitirq_wait (i := i) h.state h.irqState hn ht hq hp
  obtain ⟨hidle, hkeep⟩ := hstill.step (i := i) h hb
  have hdone := hstill.memDone (i := i)
  have hbetween : Between a (s.step true i) := h.stays hm rfl ⟨rfl, rfl, h.rdata, h.wdata⟩
  have htrigger : (s.step true i).decoderTrigger = false := by
    refine (congrArg Main.decoderTrigger hm).trans ?_
    change (s.memDoRinst && s.memDone true i) = false
    rw [hstill.rinst, Bool.false_and]
  refine advances_of_phase hstill.idle.no_access (.waits
    { toBetween := hbetween
      prefetch := ?_
      rinst := ?_
      idle := hidle
      trigger := htrigger
      waitirq := congrArg Main.doWaitirq hm
      branch := congrArg Main.latchedBranch hm
      store := congrArg Main.latchedStore hm
      pcpi := hpcpi.rest.step hm hpcpi.valid rfl
      got := hg.step hstill.rinst (by rw [decodes, htrigger, Bool.false_and]) hkeep
      instr := ?_ })
  · rw [memDoPrefetch_of hm, hdone]
    exact hstill.prefetch
  · rw [memDoRinst_of hm, hdone]
    change (false || (true && (!s.decoderTrigger && !s.doWaitirq))) = false
    rw [← Bool.not_or, ht]
    rfl
  · have hfirst : (s.step true i).toDecodeFirst = s.toDecodeFirst := toDecodeFirst_step (by rw [hstill.rinst, Bool.false_and])
    rw [hfirst]
    exact hq

/-- A jump with its link. -/
theorem Dispatches.jal (h : Dispatches code a s) (hn : s.takesIrq = false) (hq : s.instrWaitirq = false) (hj : s.instrJal = true) :
    Advances code a s i := by
  have hm := main_jal (i := i) h.state h.irqState hn h.trigger hq hj
  obtain ⟨hidle, -⟩ := h.toStill.step (i := i) h.toBetween h.branch
  have hdone := h.toStill.memDone (i := i)
  have hd := h.got.insn i
  obtain ⟨rd, imm, hinsn⟩ := Insn.exists_jal (of_decide_eq_true (hd.flags.jal.symm.trans hj))
  have hops : s.decodedRd = rd.setWidth 6 ∧ s.decodedImmJ = imm := by
    have ho := hd.operands
    rw [hinsn] at ho
    exact ho
  have himm : imm.getLsbD 0 = false := by
    have he : (insnAt code a.pc).evenTarget = true := Insn.ofWord_evenTarget _
    rw [hinsn] at he
    exact (Bool.not_eq_true' _).mp he
  have hreg : (s.step true i).regPc = a.pc := (congrArg Main.regPc hm).trans h.pc
  have hstate : (s.step true i).cpuState = .fetch := (cpuState_of hm h.toBetween.busError).trans h.state
  have hirq : (s.step true i).irqState = 0 := (congrArg Main.irqState hm).trans h.irqState
  have hbranch : (s.step true i).latchedBranch = true := congrArg Main.latchedBranch hm
  have hstore : (s.step true i).latchedStore = false := congrArg Main.latchedStore hm
  have hnext : (s.step true i).regNextPc = a.pc + imm := by
    refine (congrArg Main.regNextPc hm).trans ?_
    change s.currentPc + s.decodedImmJ = _
    rw [h.pc, hops.2]
  have hregs : (s.step true i).cpuregsNext true = (a.write (rd.setWidth 6) (a.pc + lengthAt code a.pc)).regs := by
    rw [cpuregsNext_of_some (cpuregsWrite_branch hstate hbranch) h.regs, hreg,
      show (s.step true i).latchedRd = rd.setWidth 6 from (congrArg Main.latchedRd hm).trans hops.1,
      show (s.step true i).latchedCompr = s.compressedInstr from (congrArg Main.latchedCompr hm).trans rfl, ← h.got.length]
    rfl
  have hbetween : Between (a.jump (lengthAt code a.pc) rd (a.pc + imm)) (s.step true i) :=
    { stopped := h.stopped
      trap := congrArg Main.trap hm
      mask := (congrArg Main.irqMask hm).trans h.mask
      evenPc := even_add h.evenPc himm
      evenReg := hreg ▸ h.evenPc
      clear := clearPrefetchedHighWordQ_step true
      toNoData := Vars.WantsNoData.step ⟨rfl, rfl, h.rdata, h.wdata⟩ hm
      state := hstate
      irqState := hirq
      regs := hregs
      pc := by
        rw [currentPc, hbranch, hstore, if_pos rfl, if_neg Bool.false_ne_true]
        exact hnext
      active := (congrArg Main.irqActive hm).trans h.active }
  have hrinst : (s.step true i).memDoRinst = true := by
    rw [memDoRinst_of hm, hdone]
    rfl
  refine advances_of_insn 0 h.stopped (fun rd' hw => by rw [hinsn] at hw; cases hw) ?_ (.fetch
    { toBetween := hbetween
      trigger := ?_
      waitirq := congrArg Main.doWaitirq hm
      pcpi := (h.pcpi.rest.step hm h.pcpi.valid rfl).rest
      fetch := .inr ⟨⟨hbetween.trap, hbetween.rdata, hbetween.wdata, ?_, (nextPc_of_plain (.inr hstore)).trans hnext, hbetween.clear⟩, ?_⟩ })
  · rw [hinsn, h.idle.no_access]
    rfl
  · refine (congrArg Main.decoderTrigger hm).trans ?_
    change (s.memDoRinst && s.memDone true i) = false
    rw [h.rinst, Bool.false_and]
  · rw [hrinst]
    exact Bool.or_true _
  · rw [hrinst]
    exact .idle hidle (.inl (by rw [jumps, hbranch, Bool.true_or])) fun h0 => by cases h0

/-- Any other instruction starts. -/
theorem Dispatches.start (h : Dispatches code a s) (hn : s.takesIrq = false) (hq : s.instrWaitirq = false) (hj : s.instrJal = false) :
    Advances code a s i := by
  have hm := main_start (i := i) h.state h.irqState hn h.trigger hq hj
  obtain ⟨hidle, hkeep⟩ := h.toStill.step (i := i) h.toBetween h.branch
  have hdone := h.toStill.memDone (i := i)
  have hnot : (s.memDoRinst && s.memDone true i) = false := by rw [h.rinst, Bool.false_and]
  have hfirst : (s.step true i).toDecodeFirst = s.toDecodeFirst := toDecodeFirst_step hnot
  have hreg : (s.step true i).regPc = a.pc := (congrArg Main.regPc hm).trans h.pc
  have hirq : (s.step true i).irqState = 0 := (congrArg Main.irqState hm).trans h.irqState
  have hbranch : (s.step true i).latchedBranch = false := congrArg Main.latchedBranch hm
  have hnext : (s.step true i).regNextPc = a.pc + lengthAt code a.pc := by
    refine (congrArg Main.regNextPc hm).trans ?_
    change s.currentPc + s.instrLen = _
    rw [h.pc, h.got.length]
  have hpre : (s.step true i).memDoPrefetch = (!s.instrJalr && !s.instrRetirq) := by
    rw [memDoPrefetch_of hm, hdone]
    exact Bool.true_and _
  have hrinst : (s.step true i).memDoRinst = false := by
    rw [memDoRinst_of hm, hdone]
    rfl
  have hcompr : (s.step true i).latchedCompr = s.compressedInstr := (congrArg Main.latchedCompr hm).trans rfl
  have hexec : Executing code a (s.step true i) :=
    { stopped := h.stopped
      trap := congrArg Main.trap hm
      mask := (congrArg Main.irqMask hm).trans h.mask
      evenPc := h.evenPc
      evenReg := hreg ▸ h.evenPc
      clear := clearPrefetchedHighWordQ_step true
      irqState := hirq
      regs := h.regs
      pc := hreg
      active := (congrArg Main.irqActive hm).trans h.active
      branch := hbranch
      nextPc := hnext
      length := by
        rw [hcompr]
        exact h.got.length }
  refine advances_of_phase h.idle.no_access (.operands
    { toExecuting := hexec
      toNoData := Vars.WantsNoData.step ⟨rfl, rfl, h.rdata, h.wdata⟩ hm
      trigger := (congrArg Main.decoderTrigger hm).trans hnot
      insn := hfirst ▸ h.got.insn i
      stalu := congrArg Main.latchedStalu hm
      state := cpuState_of hm h.toBetween.busError
      store := congrArg Main.latchedStore hm
      rd := ?_
      pcpi := h.pcpi.rest.step hm h.pcpi.valid rfl
      timeout := h.pcpi.timeout hm rfl
      upper := ?_
      jal := hfirst ▸ hj
      waitirq := hfirst ▸ hq
      fetch := ?_ })
  · refine (congrArg Main.latchedRd hm).trans ?_
    rw [hfirst]
    rfl
  · rw [hfirst]
    rfl
  · rw [hfirst]
    split
    · rename_i hjump
      refine ⟨hpre.trans ?_, hrinst, hidle⟩
      rw [← Bool.not_or, hjump]
      rfl
    · rename_i hjump
      rw [Bool.not_eq_true] at hjump
      refine ⟨hpre.trans ?_, hrinst, ?_⟩
      · rw [← Bool.not_or, hjump]
        rfl
      · have hbuf := h.got.buffered.keep hkeep
        exact .idle hidle (.inr (.inr hbuf)) fun _ => ⟨jumps_eq_false hbranch hirq, hbuf⟩

theorem Dispatches.step (h : Dispatches code a s) : Advances code a s i := by
  cases hn : s.takesIrq with
  | true => exact h.interrupt hn
  | false =>
    cases hq : s.instrWaitirq with
    | true =>
      have ht : (s.decoderTrigger || s.doWaitirq) = true := by rw [h.trigger, Bool.true_or]
      by_cases hp : s.irqPending = 0
      · exact waitirq_wait h.toBetween h.toStill h.branch h.pcpi h.got hn ht hq hp
      · exact waitirq_done h.toBetween h.toStill h.branch h.pcpi h.got hn ht hq hp
    | false =>
      cases hj : s.instrJal with
      | true => exact h.jal hn hq hj
      | false => exact h.start hn hq hj

theorem Waits.step (h : Waits code a s) : Advances code a s i := by
  have hn : s.takesIrq = false := by
    rw [takesIrq_eq h.irqState, h.trigger]
    rfl
  have ht : (s.decoderTrigger || s.doWaitirq) = true := by rw [h.waitirq, Bool.or_true]
  by_cases hp : s.irqPending = 0
  · exact waitirq_wait h.toBetween h.toStill h.branch h.pcpi h.got hn ht h.instr hp
  · exact waitirq_done h.toBetween h.toStill h.branch h.pcpi h.got hn ht h.instr hp

/-! ## An interrupt is taken -/

theorem even_progaddrIrq : progaddrIrq.getLsbD 0 = false := by decide

theorem SavesPc.step (h : SavesPc a s) : Advances code a s i := by
  have hm := main_irq0 (i := i) h.state h.irqState h.branch h.store
  have hpc : s.currentPc = progaddrIrq := by
    rw [currentPc, h.branch, h.store, h.irqState]
    rfl
  have hjumps : s.jumps = true := by
    rw [jumps, h.irqState]
    exact Bool.or_true _
  have hready : Ready code 0 s := .inl hjumps
  obtain ⟨hidle, -⟩ := h.idle.ready (i := i) hready h.trap h.prefetch h.rinst h.toNoData h.clear
  have hdone : s.memDone true i = false := h.idle.done
  have hbus : s.busError true = false := busError_of h.rdata h.wdata h.evenReg
  have hmask : (s.step true i).irqMask = s.irqMask := (congrArg Main.irqMask hm).trans rfl
  have hreg : (s.step true i).regPc = progaddrIrq := (congrArg Main.regPc hm).trans hpc
  refine advances_of_phase h.idle.no_access (.savesIrq
    { stopped := h.stopped
      trap := congrArg Main.trap hm
      mask := hmask.trans h.mask
      evenPc := h.evenPc
      evenReg := hreg ▸ even_progaddrIrq
      clear := clearPrefetchedHighWordQ_step true
      toNoData := Vars.WantsNoData.step ⟨rfl, rfl, h.rdata, h.wdata⟩ hm
      state := (cpuState_of hm hbus).trans h.state
      trigger := ?_
      waitirq := congrArg Main.doWaitirq hm
      branch := congrArg Main.latchedBranch hm
      store := congrArg Main.latchedStore hm
      idle := hidle
      prefetch := ?_
      pcpi := h.pcpi.rest.step hm h.pcpi.valid rfl
      inactive := h.inactive
      pending := ?_
      irqState := congrArg Main.irqState hm
      rinst := ?_
      active := congrArg Main.irqActive hm
      regs := ⟨s.latchedCompr, ?_⟩
      rd := congrArg Main.latchedRd hm
      pc := (congrArg Main.regNextPc hm).trans hpc })
  · refine (congrArg Main.decoderTrigger hm).trans ?_
    change (s.memDoRinst && s.memDone true i) = false
    rw [h.rinst, Bool.false_and]
  · rw [memDoPrefetch_of hm, hdone]
    exact h.prefetch
  · rw [hmask]
    refine irqPending_of hm ?_
    change (s.irqPending &&& latchedIrq) &&& ~~~s.irqMask ≠ 0
    rw [show latchedIrq = BitVec.allOnes 32 from rfl, BitVec.and_allOnes]
    exact h.pending
  · rw [memDoRinst_of hm, hdone]
    rfl
  · have hw : s.cpuregsWrite = some (a.pc ||| (BitVec.ofBool s.latchedCompr).setWidth 32) := by
      rw [cpuregsWrite, if_pos h.state, h.branch, h.store, h.irqState, h.pc, if_neg Bool.false_ne_true, if_neg Bool.false_ne_true]
      rfl
    rw [cpuregs_step, cpuregsNext_of_some hw h.regs, h.rd]

theorem and_not_and (x m : Word32) : (x &&& ~~~m) &&& m = 0 := by
  refine BitVec.eq_of_getLsbD_eq fun k hk => ?_
  cases hm : m.getLsbD k <;> simp [hm]

theorem SavesIrq.step (h : SavesIrq a s) (hc : Answers code s i) : Advances code a s i := by
  have hm := main_irq1 (i := i) h.state h.irqState h.branch h.store h.trigger h.waitirq
  have hpc : s.currentPc = progaddrIrq := by
    rw [currentPc, h.branch, h.store, h.irqState, if_neg Bool.false_ne_true, if_neg Bool.false_ne_true]
    exact h.pc
  have hjumps : s.jumps = true := by
    rw [jumps, h.irqState]
    exact Bool.or_true _
  have hdone : s.memDone true i = false := h.idle.done
  have hbus : s.busError true = false := busError_of h.rdata h.wdata h.evenReg
  have hreg : (s.step true i).regPc = progaddrIrq := (congrArg Main.regPc hm).trans hpc
  have hstate : (s.step true i).cpuState = .fetch := (cpuState_of hm hbus).trans h.state
  have hirq : (s.step true i).irqState = 0 := congrArg Main.irqState hm
  have hbranch : (s.step true i).latchedBranch = false := congrArg Main.latchedBranch hm
  have hstore : (s.step true i).latchedStore = false := congrArg Main.latchedStore hm
  have hnext : (s.step true i).regNextPc = progaddrIrq := (congrArg Main.regNextPc hm).trans hpc
  obtain ⟨bit, hregs⟩ := h.regs
  have hwrite : s.cpuregsWrite = some (s.irqPending &&& ~~~s.irqMask) := by
    rw [cpuregsWrite, if_pos h.state, h.branch, h.store, h.irqState, if_neg Bool.false_ne_true, if_neg Bool.false_ne_true]
    rfl
  have hnew : (s.step true i).cpuregs = (a.irq bit (s.irqPending &&& ~~~s.irqMask)).regs := by
    rw [cpuregs_step, cpuregsNext_of_some hwrite hregs, h.rd]
    rfl
  have hbetween : Between (a.irq bit (s.irqPending &&& ~~~s.irqMask)) (s.step true i) :=
    { stopped := h.stopped
      trap := congrArg Main.trap hm
      mask := (congrArg Main.irqMask hm).trans h.mask
      evenPc := even_progaddrIrq
      evenReg := hreg ▸ even_progaddrIrq
      clear := clearPrefetchedHighWordQ_step true
      toNoData := Vars.WantsNoData.step ⟨rfl, rfl, h.rdata, h.wdata⟩ hm
      state := hstate
      irqState := hirq
      regs := (cpuregsNext_of_none (cpuregsWrite_none hstate hbranch hstore hirq)).trans hnew
      pc := (currentPc_of_plain hbranch (.inr hirq)).trans hnext
      active := (congrArg Main.irqActive hm).trans h.active }
  have hask : Asks progaddrIrq s :=
    ⟨h.trap, h.rdata, h.wdata, by rw [h.rinst, Bool.or_true], (nextPc_of_plain (.inl h.branch)).trans h.pc, h.clear⟩
  have hf : Fetching code progaddrIrq s.memDoRinst s := .idle h.idle (.inl hjumps) fun h0 => by rw [h.rinst] at h0; cases h0
  have hrinst : (s.step true i).memDoRinst = true := by
    rw [memDoRinst_of hm, hdone]
    rfl
  refine ⟨a.irq bit (s.irqPending &&& ~~~s.irqMask), .inr ?_, .fetch
    { toBetween := hbetween
      trigger := ?_
      waitirq := congrArg Main.doWaitirq hm
      pcpi := (h.pcpi.rest.step hm h.pcpi.valid rfl).rest
      fetch := .inr ⟨⟨hbetween.trap, hbetween.rdata, hbetween.wdata, ?_, (nextPc_of_plain (.inl hbranch)).trans hnext, hbetween.clear⟩, ?_⟩ }⟩
  · rw [h.idle.no_access]
    exact .irq a bit _ h.stopped h.inactive h.pending (h.mask ▸ and_not_and _ _)
  · refine (congrArg Main.decoderTrigger hm).trans ?_
    change (s.memDoRinst && s.memDone true i) = false
    rw [hdone, Bool.and_false]
  · rw [hrinst]
    exact Bool.or_true _
  · rw [hrinst]
    rcases hf.step (q := true) hask hc (fun _ => rfl) (jumps_eq_false hbranch hirq) with ⟨-, hf'⟩ | hf'
    · exact hf'
    · cases hdone.symm.trans hf'.done

end Core

end RiscvSoc.Cpu
