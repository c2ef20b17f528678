import RiscvSoc.Cpu.OperandPhases
/-!
# Loads and stores

The next instruction is fetched first, then the access is made. An address that is not
aligned is an interrupt or the end; the access is made in any case.
-/

namespace RiscvSoc.Cpu

open Rv32

namespace Core

variable {code : Word32 → Word32} {a b : Arch} {s : Core} {i : CoreIn} {t : Vars}

/-! ## The next instruction comes first -/

theorem ne_of_stmem (h : s.cpuState = .stmem) : s.cpuState ≠ .fetch := by
  rw [h]
  exact CpuState.noConfusion

theorem ne_of_ldmem (h : s.cpuState = .ldmem) : s.cpuState ≠ .fetch := by
  rw [h]
  exact CpuState.noConfusion

section Edges

variable (hp : s.memDoPrefetch = true)

include hp

theorem main_stmem_wait (hs : s.cpuState = .stmem) (hdone : s.memDone true i = false) :
    (s.step true i).toMain = s.finish true i (s.defaults true i) := by
  rw [toMain_step, fsm, hs]
  refine congrArg _ ?_
  unfold stmem
  simp only [hp, hdone, Bool.not_true, Bool.or_self, Bool.false_eq_true, ↓reduceIte]

theorem main_stmem_start {op : StoreOp} (hs : s.cpuState = .stmem) (hdone : s.memDone true i = true) (hw : s.memDoWdata = false)
    (hf : Flags (.store op) s.toDecodeFirst s.toDecodeSecond) :
    (s.step true i).toMain = s.finish true i { s.defaults true i with
      memWordsize := wordsize op.size
      regOp1 := s.regOp1 + s.decodedImm
      setMemDoWdata := true } := by
  rw [toMain_step, fsm, hs]
  refine congrArg _ ?_
  unfold stmem
  rw [show s.instrSb = _ from hf.store .sb, show s.instrSh = _ from hf.store .sh, show s.instrSw = _ from hf.store .sw]
  simp only [hp, hdone, hw, Bool.not_true, Bool.not_false, Bool.false_or, Bool.false_and, Bool.false_eq_true, ↓reduceIte]
  cases op <;> rfl

theorem main_ldmem_wait (hs : s.cpuState = .ldmem) (hdone : s.memDone true i = false) :
    (s.step true i).toMain = s.finish true i { s.defaults true i with latchedStore := true } := by
  rw [toMain_step, fsm, hs]
  refine congrArg _ ?_
  unfold ldmem
  simp only [hp, hdone, Bool.not_true, Bool.or_self, Bool.false_eq_true, ↓reduceIte]

theorem main_ldmem_start {op : LoadOp} (hs : s.cpuState = .ldmem) (hdone : s.memDone true i = true) (hw : s.memDoRdata = false)
    (hf : Flags (.load op) s.toDecodeFirst s.toDecodeSecond) (hc : Classed s) :
    (s.step true i).toMain = s.finish true i { s.defaults true i with
      latchedStore := true
      memWordsize := wordsize op.size
      latchedIsLu := (op = .lbu || op = .lhu || op = .lw : Bool)
      latchedIsLh := decide (op = .lh)
      latchedIsLb := decide (op = .lb)
      regOp1 := s.regOp1 + s.decodedImm
      setMemDoRdata := true } := by
  rw [toMain_step, fsm, hs]
  refine congrArg _ ?_
  unfold ldmem
  rw [hc.lu, show s.instrLb = _ from hf.load .lb, show s.instrLbu = _ from hf.load .lbu, show s.instrLh = _ from hf.load .lh,
    show s.instrLhu = _ from hf.load .lhu, show s.instrLw = _ from hf.load .lw]
  simp only [hp, hdone, hw, Bool.not_true, Bool.not_false, Bool.false_or, Bool.false_and, Bool.false_eq_true, ↓reduceIte]
  cases op <;> rfl

end Edges

/-- The next instruction is there, and the access can begin. -/
theorem Executing.accesses (h : Executing code a s) (hs : s.cpuState ≠ .fetch)
    (hm : (s.step true i).toMain = s.finish true i t) (hf : Fetched code (a.pc + lengthAt code a.pc) s i)
    (hframe : frame t.toMain = frame (s.defaults true i).toMain) (hb : t.latchedBranch = false) (hl : t.latchedStalu = false)
    (hset : t.setMemDoRinst = false) (htrig : t.decoderTrigger = (s.memDoRinst && s.memDone true i)) (hpseudo : t.decoderPseudoTrigger = false)
    (hpcpi : PcpiQuiet (s.step true i)) : Accesses code a (s.step true i) where
  toExecuting := h.step hm hframe hs hb
  stalu := (congrArg Main.latchedStalu hm).trans hl
  prefetch := by rw [memDoPrefetch_of hm, hf.done, Bool.not_true, Bool.false_and]
  rinst := by rw [memDoRinst_of hm, hf.done, hset, Bool.not_true, Bool.false_and, Bool.or_self]
  pcpi := hpcpi
  got := hf.got ((congrArg Main.decoderTrigger hm).trans (htrig.trans (by rw [hf.rinst, hf.done]; rfl)))
    ((congrArg Main.decoderPseudoTrigger hm).trans hpseudo)

theorem Ahead.fetched {r : Bool} (h : Ahead code a s r) (hask : Asks (a.pc + lengthAt code a.pc) s) (hc : Answers code s i)
    (hdone : s.memDone true i = true) (hj : (s.step true i).jumps = false) : Fetched code (a.pc + lengthAt code a.pc) s i := by
  have hfetching : Fetching code (a.pc + lengthAt code a.pc) s.memDoRinst s := h.rinst.symm ▸ h.fetching
  rcases hfetching.step (q := true) hask hc (fun _ => rfl) hj with ⟨hno, -⟩ | hf
  · cases hdone.symm.trans hno
  · exact hf

theorem StoreFetches.step (h : StoreFetches code a s) (hc : Answers code s i) : Advances code a s i := by
  obtain ⟨op, rs1, rs2, hi, h1, h2⟩ := h.operands
  have hs := ne_of_stmem h.state
  have hask := h.toExecuting.asks h.fetch.prefetch h.rdata h.wdata
  have hf : Flags (.store op) s.toDecodeFirst s.toDecodeSecond := by
    have hflags := h.insn.flags
    rwa [hi] at hflags
  cases hdone : s.memDone true i with
  | false =>
    have hm := main_stmem_wait h.fetch.prefetch h.state hdone
    have hnot : (s.memDoRinst && s.memDone true i) = false := by rw [hdone, Bool.and_false]
    have ho : Onward (s.defaults true i) s i := ⟨rfl, h.branch, rfl, ⟨rfl, rfl, h.rdata, h.wdata⟩, rfl, rfl, rfl, rfl⟩
    have hnext : Decodes code a (s.step true i) := ho.decodes hm h.toDecodes hs hnot
    refine advances_of_phase h.fetch.fetching.no_access (.storeFetches
      { toDecodes := hnext
        state := (cpuState_of hm h.toDecodes.busError).trans h.state
        store := (congrArg Main.latchedStore hm).trans h.store
        pcpi := ho.pcpi hm h.pcpi rfl
        operands := ⟨op, rs1, rs2, ?_, (congrArg Main.regOp1 hm).trans h1, (congrArg Main.regOp2 hm).trans h2⟩
        fetch := ho.ahead hm h.toDecodes hs h.fetch hdone hc h.fetch.rinst fun h0 => h0 })
    rw [congrArg DecodeSecond.decodedImm h.toDecodes.second]
    exact hi
  | true =>
    have hm := main_stmem_start h.fetch.prefetch h.state hdone h.wdata hf
    have hfetched := h.fetch.fetched hask hc hdone (h.toExecuting.step hm rfl hs h.branch).jumps
    have hpcpi : PcpiQuiet (s.step true i) := h.pcpi.rest.step hm h.pcpi.valid rfl
    refine advances_of_phase h.fetch.fetching.no_access (.stores
      { toAccesses := h.toExecuting.accesses hs hm hfetched rfl h.branch h.stalu rfl rfl rfl hpcpi
        state := (cpuState_of hm h.toDecodes.busError).trans h.state
        store := (congrArg Main.latchedStore hm).trans h.store
        access := ⟨op, rs1, rs2, s.decodedImm, hi, ?_, (congrArg Main.regOp2 hm).trans h2, ?_, ?_, congrArg Main.memWordsize hm,
          .inl hfetched.idle⟩ })
    · rw [← h1]
      exact congrArg Main.regOp1 hm
    · exact memDoWdata_of hm
    · rw [memDoRdata_of hm, hdone]
      rfl

theorem LoadFetches.step (h : LoadFetches code a s) (hc : Answers code s i) : Advances code a s i := by
  obtain ⟨op, rd, rs1, hi, h1, hrd⟩ := h.operands
  have hs := ne_of_ldmem h.state
  have hask := h.toExecuting.asks h.fetch.prefetch h.rdata h.wdata
  have hf : Flags (.load op) s.toDecodeFirst s.toDecodeSecond := by
    have hflags := h.insn.flags
    rwa [hi] at hflags
  cases hdone : s.memDone true i with
  | false =>
    have hm := main_ldmem_wait h.fetch.prefetch h.state hdone
    have hnot : (s.memDoRinst && s.memDone true i) = false := by rw [hdone, Bool.and_false]
    have hdec : s.decodes = false := by rw [decodes, h.trigger, Bool.false_and]
    have ho : Onward { s.defaults true i with latchedStore := true } s i :=
      ⟨rfl, h.branch, rfl, ⟨rfl, rfl, h.rdata, h.wdata⟩, rfl, rfl, rfl, rfl⟩
    have hnext : Decodes code a (s.step true i) := ho.decodes hm h.toDecodes hs hnot
    refine advances_of_phase h.fetch.fetching.no_access (.loadFetches
      { toDecodes := hnext
        state := (cpuState_of hm h.toDecodes.busError).trans h.state
        pcpi := ho.pcpi hm h.pcpi rfl
        classed := classed_step hdec hnot
        operands := ⟨op, rd, rs1, ?_, (congrArg Main.regOp1 hm).trans h1, (congrArg Main.latchedRd hm).trans hrd⟩
        fetch := ho.ahead hm h.toDecodes hs h.fetch hdone hc h.fetch.rinst fun h0 => h0 })
    rw [congrArg DecodeSecond.decodedImm h.toDecodes.second]
    exact hi
  | true =>
    have hm := main_ldmem_start h.fetch.prefetch h.state hdone h.rdata hf h.classed
    have hfetched := h.fetch.fetched hask hc hdone (h.toExecuting.step hm rfl hs h.branch).jumps
    have hpcpi : PcpiQuiet (s.step true i) := h.pcpi.rest.step hm h.pcpi.valid rfl
    refine advances_of_phase h.fetch.fetching.no_access (.loads
      { toAccesses := h.toExecuting.accesses hs hm hfetched rfl h.branch h.stalu rfl rfl rfl hpcpi
        state := (cpuState_of hm h.toDecodes.busError).trans h.state
        access := ⟨op, rd, rs1, s.decodedImm, hi, ?_, (congrArg Main.latchedRd hm).trans hrd,
          { size := congrArg Main.memWordsize hm
            isLu := congrArg Main.latchedIsLu hm
            isLh := congrArg Main.latchedIsLh hm
            isLb := congrArg Main.latchedIsLb hm
            rdata := memDoRdata_of hm
            wdata := ?_
            transfer := .inl hfetched.idle }⟩ })
    · rw [← h1]
      exact congrArg Main.regOp1 hm
    · rw [memDoWdata_of hm, hdone]
      rfl

/-! ## The transfer -/

theorem StoreUnderWay.transfers {op : StoreOp} (h : StoreUnderWay s op) (hcalm : Calm s) (hop : (s.step true i).regOp1 = s.regOp1) :
    (s.memDone true i = false ∧ s.access i = none ∧ Keeps s (s.step true i) ∧
      ∃ strb data, strb ≠ 0 ∧ lanesOf strb data = op.lanes s.regOp1 s.regOp2 ∧ Storing strb data (s.step true i)) ∨
    (s.memDone true i = true ∧ s.access i = some (.write (wordAddr s.regOp1) (op.lanes s.regOp1 s.regOp2)) ∧
      Keeps s (s.step true i) ∧ Idle (s.step true i)) := by
  rcases h.transfer with hidle | ⟨strb, data, hne, hlanes, hst⟩
  · obtain ⟨hdone, hst, hkeep⟩ := hidle.stores (i := i) hcalm h.rdata h.wdata rfl rfl hop
    exact .inl ⟨hdone, hidle.no_access, hkeep, _, _, memLaWstrb_ne_zero h.size, lanesOf_store h.size, hst⟩
  · cases hr : i.memReady with
    | false =>
      obtain ⟨hdone, hst', hkeep⟩ := hst.wait hcalm hr hop
      exact .inl ⟨hdone, access_of_not_ready hr, hkeep, strb, data, hne, hlanes, hst'⟩
    | true =>
      obtain ⟨hdone, hacc, hidle, hkeep⟩ := hst.stored hcalm hr h.wdata hne
      exact .inr ⟨hdone, hlanes ▸ hacc, hkeep, hidle⟩

theorem LoadUnderWay.transfers {op : LoadOp} (h : LoadUnderWay s op) (hcalm : Calm s) (hop : (s.step true i).regOp1 = s.regOp1) :
    (s.memDone true i = false ∧ s.access i = none ∧ Keeps s (s.step true i) ∧ Loading (s.step true i)) ∨
    (s.memDone true i = true ∧ s.access i = some (.read (wordAddr s.regOp1) i.memRdata) ∧ Keeps s (s.step true i) ∧ Idle (s.step true i)) := by
  rcases h.transfer with hidle | hload
  · obtain ⟨hdone, hload, hkeep⟩ := hidle.loads (i := i) hcalm h.rdata h.wdata hop
    exact .inl ⟨hdone, hidle.no_access, hkeep, hload⟩
  · cases hr : i.memReady with
    | false =>
      obtain ⟨hdone, hload', hkeep⟩ := hload.wait hcalm hr hop
      exact .inl ⟨hdone, access_of_not_ready hr, hkeep, hload'⟩
    | true =>
      obtain ⟨hdone, hacc, hidle, hkeep⟩ := hload.loaded hcalm hr h.rdata
      exact .inr ⟨hdone, hacc, hkeep, hidle⟩

/-! ## The access -/

/-- The error of the cycle stops the core. -/
def fatal (s : Core) : Bool := s.busError true && !s.catches irqBuserror

theorem cpuState_of_not_fatal (hm : (s.step true i).toMain = s.finish true i t) (h : s.fatal = false) :
    (s.step true i).cpuState = t.cpuState := by
  refine (congrArg Main.cpuState hm).trans ?_
  change (if s.fatal = true then CpuState.trap else t.cpuState) = t.cpuState
  rw [h, if_neg Bool.false_ne_true]

theorem cpuState_of_fatal (hm : (s.step true i).toMain = s.finish true i t) (h : s.fatal = true ∨ t.cpuState = .trap) :
    (s.step true i).cpuState = .trap := by
  refine (congrArg Main.cpuState hm).trans ?_
  change (if s.fatal = true then CpuState.trap else t.cpuState) = .trap
  rcases h with h | h
  · rw [h, if_pos rfl]
  · rw [h]
    exact ite_self _

theorem Accesses.fatal_eq (h : Accesses code a s) {size : ℕ} (hsize : size = 1 ∨ size = 2 ∨ size = 4) (hw : s.memWordsize = wordsize size)
    (hreq : (s.memDoRdata || s.memDoWdata) = true) :
    s.fatal = (!aligned size s.regOp1 && !(!a.irqMask.getLsbD irqBuserror && !a.irqActive)) := by
  rw [fatal, busError, misalignedData_eq hsize hw hreq, misalignedInstr, h.rinst, Bool.false_and, Bool.or_false, Bool.true_and, catches,
    h.mask, h.active]

/-- What becomes of an access to an address that is aligned or not. -/
theorem error_eq (a b : Arch) (al : Bool) : (if al then b else a.error Arch.irqBuserror b) =
    if (!al && !(!a.irqMask.getLsbD irqBuserror && !a.irqActive)) = true then { a with stopped := true } else b := by
  rw [Arch.error]
  change (if al then b else if (!a.irqMask.getLsbD irqBuserror && !a.irqActive) = true then b else { a with stopped := true }) = _
  cases al <;> cases (!a.irqMask.getLsbD irqBuserror && !a.irqActive) <;> rfl

section Access

variable (h : Accesses code a s)

include h

theorem Accesses.calm : Calm s := ⟨⟨h.prefetch, h.rinst⟩, h.trap, h.toExecuting.jumps, h.clear⟩

theorem Accesses.next (hs : s.cpuState ≠ .fetch) (hm : (s.step true i).toMain = s.finish true i t)
    (hframe : frame t.toMain = frame (s.defaults true i).toMain) (hb : t.latchedBranch = false) (hl : t.latchedStalu = s.latchedStalu)
    (hp : t.memDoPrefetch = s.memDoPrefetch) (hr : t.memDoRinst = s.memDoRinst) (hset : t.setMemDoRinst = false)
    (htrig : t.decoderTrigger = (s.memDoRinst && s.memDone true i)) (hpcpi : PcpiQuiet (s.step true i)) (hkeep : Keeps s (s.step true i)) :
    Accesses code a (s.step true i) where
  toExecuting := h.toExecuting.step hm hframe hs hb
  stalu := (congrArg Main.latchedStalu hm).trans (hl.trans h.stalu)
  prefetch := by rw [memDoPrefetch_of hm, hp, h.prefetch, Bool.and_false]
  rinst := by rw [memDoRinst_of hm, hset, hr, h.rinst, Bool.and_false, Bool.or_self]
  pcpi := hpcpi
  got := by
    have htrigger : (s.step true i).decoderTrigger = false :=
      (congrArg Main.decoderTrigger hm).trans (htrig.trans (by rw [h.rinst, Bool.false_and]))
    exact h.got.step h.rinst (by rw [decodes, htrigger, Bool.false_and]) hkeep

/-- The instruction ends with its access, and the next one is there. -/
theorem Accesses.done (hs : s.cpuState ≠ .fetch) (hm : (s.step true i).toMain = s.finish true i t) (hfatal : s.fatal = false)
    (hstate : t.cpuState = .fetch) (hframe : frame' t.toMain = frame' (s.defaults true i).toMain) (hb : t.latchedBranch = false)
    (hp : t.memDoPrefetch = s.memDoPrefetch) (hr : t.memDoRinst = s.memDoRinst) (hset : t.setMemDoRinst = false)
    (htrig : t.decoderTrigger = true) (hpseudo : t.decoderPseudoTrigger = true) (hn : NoData (s.step true i))
    (hpcpi : PcpiQuiet (s.step true i)) (hkeep : Keeps s (s.step true i)) (hidle : Idle (s.step true i)) (hy : Yields code a t b) :
    Dispatches code b (s.step true i) where
  toBetween := h.toExecuting.between hm hs ((cpuState_of_not_fatal hm hfatal).trans hstate) hframe hb hn.rdata hn.wdata hy.stopped hy.mask
    hy.active hy.pc hy.regs
  prefetch := by rw [memDoPrefetch_of hm, hp, h.prefetch, Bool.and_false]
  rinst := by rw [memDoRinst_of hm, hset, hr, h.rinst, Bool.and_false, Bool.or_self]
  idle := hidle
  trigger := (congrArg Main.decoderTrigger hm).trans htrig
  branch := (congrArg Main.latchedBranch hm).trans hb
  pcpi := hpcpi
  got := by
    have hpseudo' : (s.step true i).decoderPseudoTrigger = true := (congrArg Main.decoderPseudoTrigger hm).trans hpseudo
    rw [hy.pc]
    exact h.got.step h.rinst (by rw [decodes, hpseudo', Bool.not_true, Bool.and_false]) hkeep

end Access

/-- No transaction, and the core has stopped. -/
theorem Idle.stopped (h : Idle s) (hs : s.cpuState = .trap) (hn : NoData s) : Stopped code { a with stopped := true } s where
  stopped := rfl
  state := hs
  rdata := hn.rdata
  wdata := hn.wdata
  valid hv := by rw [h.valid] at hv; cases hv
  fetch _ := .inl h

theorem main_stmem (hs : s.cpuState = .stmem) (hp : s.memDoPrefetch = false) (hw : s.memDoWdata = true) :
    (s.step true i).toMain = s.finish true i { s.defaults true i with
      decoderTrigger := if s.memDone true i then true else (s.defaults true i).decoderTrigger
      decoderPseudoTrigger := s.memDone true i
      cpuState := if s.memDone true i then .fetch else .stmem } := by
  rw [toMain_step, fsm, hs]
  refine congrArg _ ?_
  unfold stmem
  simp only [hp, hw, Bool.not_false, Bool.not_true, Bool.true_or, Bool.true_and, Bool.false_eq_true, ↓reduceIte]
  cases s.memDone true i with
  | true => rfl
  | false =>
    rw [if_neg Bool.false_ne_true, if_neg Bool.false_ne_true, if_neg Bool.false_ne_true, ← hs]
    rfl

theorem Stores.step (h : Stores code a s) : Advances code a s i := by
  obtain ⟨op, rs1, rs2, imm, hi, h1, h2, hw⟩ := h.access
  have hs := ne_of_stmem h.state
  have hm := main_stmem (i := i) h.state h.prefetch hw.wdata
  have hop : (s.step true i).regOp1 = s.regOp1 := (congrArg Main.regOp1 hm).trans rfl
  have hop2 : (s.step true i).regOp2 = s.regOp2 := (congrArg Main.regOp2 hm).trans rfl
  have hpcpi : PcpiQuiet (s.step true i) := h.pcpi.rest.step hm h.pcpi.valid rfl
  have hfatal := h.toAccesses.fatal_eq (by cases op <;> simp [StoreOp.size]) hw.size (by rw [hw.wdata, Bool.or_true])
  have hexec : a.exec (lengthAt code a.pc) 0 (insnAt code a.pc) = (some (.write (wordAddr s.regOp1) (op.lanes s.regOp1 s.regOp2)),
      if s.fatal = true then { a with stopped := true } else a.next (lengthAt code a.pc)) := by
    rw [hi, hfatal, ← error_eq, h1, h2]
    rfl
  have hu : ∀ rd, insnAt code a.pc = .waitirq rd → (0 : Word32) ≠ 0 := fun rd hq => by rw [hi] at hq; cases hq
  rcases hw.transfers h.toAccesses.calm hop with ⟨hdone, hacc, hkeep, strb, data, hne, hlanes, hst⟩ | ⟨hdone, hacc, hkeep, hidle⟩
  · rw [hdone, if_neg Bool.false_ne_true, if_neg Bool.false_ne_true] at hm
    have hnext : Accesses code a (s.step true i) := h.toAccesses.next hs hm rfl h.branch rfl rfl rfl rfl rfl hpcpi hkeep
    have hwdata : (s.step true i).memDoWdata = true := by
      rw [memDoWdata_of hm, hdone]
      exact hw.wdata
    have hrdata : (s.step true i).memDoRdata = false := by
      rw [memDoRdata_of hm, hdone]
      exact hw.rdata
    cases hf : s.fatal with
    | false =>
      refine advances_of_phase hacc (.stores
        { toAccesses := hnext
          state := cpuState_of_not_fatal hm hf
          store := (congrArg Main.latchedStore hm).trans h.store
          access := ⟨op, rs1, rs2, imm, hi, hop.trans h1, hop2.trans h2, hwdata, hrdata, (congrArg Main.memWordsize hm).trans hw.size,
            .inr ⟨strb, data, hne, ?_, hst⟩⟩ })
      rw [hop, hop2]
      exact hlanes
    | true =>
      rw [hf, eq_comm, Bool.and_eq_true, Bool.not_eq_true', Bool.not_eq_true'] at hfatal
      refine advances_of_phase hacc (.stops
        { stopped := h.stopped
          state := cpuState_of_fatal hm (.inl hf)
          jumps := hnext.toExecuting.jumps
          clear := clearPrefetchedHighWordQ_step true
          prefetch := hnext.prefetch
          rinst := hnext.rinst
          fatal := hfatal.2
          access := .inl ⟨op, rs1, rs2, imm, strb, data, hi, hop.trans h1, ?_, hwdata, hrdata, hne, ?_, hst⟩ })
      · rw [hop]
        exact hfatal.1
      · rw [hop, ← h2]
        exact hlanes
  · rw [hdone, if_pos rfl, if_pos rfl] at hm
    have hn : NoData (s.step true i) :=
      ⟨by rw [memDoRdata_of hm, hdone]; rfl, by rw [memDoWdata_of hm, hdone]; rfl⟩
    cases hf : s.fatal with
    | false =>
      rw [hf, if_neg Bool.false_ne_true] at hexec
      refine advances_of_insn 0 h.stopped hu (by rw [hexec, hacc]) (.dispatch (h.toAccesses.done
        (b := a.next (lengthAt code a.pc)) hs hm hf rfl rfl h.branch rfl rfl rfl rfl rfl hn hpcpi hkeep hidle ⟨h.stopped, h.mask, rfl, rfl, ?_⟩))
      change a.regs = if s.latchedStore then _ else a.regs
      rw [h.store, if_neg Bool.false_ne_true]
    | true =>
      rw [hf, if_pos rfl] at hexec
      exact advances_of_insn 0 h.stopped hu (by rw [hexec, hacc]) (.stopped (hidle.stopped (cpuState_of_fatal hm (.inl hf)) hn))

theorem main_ldmem {op : LoadOp} (hs : s.cpuState = .ldmem) (hp : s.memDoPrefetch = false) (hw : s.memDoRdata = true) (hf : LoadFlags op s) :
    (s.step true i).toMain = s.finish true i { s.defaults true i with
      latchedStore := true
      regOut := if s.memDone true i then op.eval s.regOp1 i.memRdata else i.undef.regOut
      decoderTrigger := if s.memDone true i then true else (s.defaults true i).decoderTrigger
      decoderPseudoTrigger := s.memDone true i
      cpuState := if s.memDone true i then .fetch else .ldmem } := by
  rw [toMain_step, fsm, hs]
  refine congrArg _ ?_
  unfold ldmem
  simp only [hp, hw, Bool.not_false, Bool.not_true, Bool.true_or, Bool.true_and, Bool.false_eq_true, ↓reduceIte]
  cases s.memDone true i with
  | true =>
    rw [if_pos rfl, if_pos rfl, if_pos rfl, if_pos rfl, hf.eval]
  | false =>
    rw [if_neg Bool.false_ne_true, if_neg Bool.false_ne_true, if_neg Bool.false_ne_true, if_neg Bool.false_ne_true, ← hs]
    rfl

theorem Loads.step (h : Loads code a s) : Advances code a s i := by
  obtain ⟨op, rd, rs1, imm, hi, h1, hrd, hw⟩ := h.access
  have hs := ne_of_ldmem h.state
  have hm := main_ldmem (i := i) h.state h.prefetch hw.rdata hw.toLoadFlags
  have hop : (s.step true i).regOp1 = s.regOp1 := (congrArg Main.regOp1 hm).trans rfl
  have hpcpi : PcpiQuiet (s.step true i) := h.pcpi.rest.step hm h.pcpi.valid rfl
  have hfatal := h.toAccesses.fatal_eq (by cases op <;> simp [LoadOp.size]) hw.size (by rw [hw.rdata, Bool.true_or])
  have hexec : a.exec (lengthAt code a.pc) i.memRdata (insnAt code a.pc) = (some (.read (wordAddr s.regOp1) i.memRdata),
      if s.fatal = true then { a with stopped := true } else a.result (lengthAt code a.pc) rd (op.eval s.regOp1 i.memRdata)) := by
    rw [hi, hfatal, ← error_eq, h1]
    rfl
  have hu : ∀ rd, insnAt code a.pc = .waitirq rd → i.memRdata ≠ 0 := fun rd hq => by rw [hi] at hq; cases hq
  rcases hw.transfers h.toAccesses.calm hop with ⟨hdone, hacc, hkeep, hload⟩ | ⟨hdone, hacc, hkeep, hidle⟩
  · rw [hdone, if_neg Bool.false_ne_true, if_neg Bool.false_ne_true, if_neg Bool.false_ne_true] at hm
    have hnext : Accesses code a (s.step true i) := h.toAccesses.next hs hm rfl h.branch rfl rfl rfl rfl rfl hpcpi hkeep
    have hwdata : (s.step true i).memDoWdata = false := by
      rw [memDoWdata_of hm, hdone]
      exact hw.wdata
    have hrdata : (s.step true i).memDoRdata = true := by
      rw [memDoRdata_of hm, hdone]
      exact hw.rdata
    cases hf : s.fatal with
    | false =>
      exact advances_of_phase hacc (.loads
        { toAccesses := hnext
          state := cpuState_of_not_fatal hm hf
          access := ⟨op, rd, rs1, imm, hi, hop.trans h1, (congrArg Main.latchedRd hm).trans hrd,
            { size := (congrArg Main.memWordsize hm).trans hw.size
              isLu := (congrArg Main.latchedIsLu hm).trans hw.isLu
              isLh := (congrArg Main.latchedIsLh hm).trans hw.isLh
              isLb := (congrArg Main.latchedIsLb hm).trans hw.isLb
              rdata := hrdata
              wdata := hwdata
              transfer := .inr hload }⟩ })
    | true =>
      rw [hf, eq_comm, Bool.and_eq_true, Bool.not_eq_true', Bool.not_eq_true'] at hfatal
      refine advances_of_phase hacc (.stops
        { stopped := h.stopped
          state := cpuState_of_fatal hm (.inl hf)
          jumps := hnext.toExecuting.jumps
          clear := clearPrefetchedHighWordQ_step true
          prefetch := hnext.prefetch
          rinst := hnext.rinst
          fatal := hfatal.2
          access := .inr ⟨op, rd, rs1, imm, hi, hop.trans h1, ?_, hrdata, hwdata, hload⟩ })
      rw [hop]
      exact hfatal.1
  · rw [hdone, if_pos rfl, if_pos rfl, if_pos rfl] at hm
    have hn : NoData (s.step true i) :=
      ⟨by rw [memDoRdata_of hm, hdone]; rfl, by rw [memDoWdata_of hm, hdone]; rfl⟩
    cases hf : s.fatal with
    | false =>
      rw [hf, if_neg Bool.false_ne_true] at hexec
      refine advances_of_insn i.memRdata h.stopped hu (by rw [hexec, hacc]) (.dispatch (h.toAccesses.done
        (b := a.result (lengthAt code a.pc) rd (op.eval s.regOp1 i.memRdata)) hs hm hf rfl rfl h.branch rfl rfl rfl rfl rfl hn hpcpi
        hkeep hidle ⟨h.stopped, h.mask, rfl, rfl, ?_⟩))
      change _ = (a.write s.latchedRd (if s.latchedStalu then s.aluOut i else op.eval s.regOp1 i.memRdata)).regs
      rw [h.stalu, if_neg Bool.false_ne_true, hrd]
      rfl
    | true =>
      rw [hf, if_pos rfl] at hexec
      exact advances_of_insn i.memRdata h.stopped hu (by rw [hexec, hacc]) (.stopped (hidle.stopped (cpuState_of_fatal hm (.inl hf)) hn))

/-! ## The core stops -/

theorem main_trap (hs : s.cpuState = .trap) : (s.step true i).toMain = s.finish true i { s.defaults true i with trap := true } := by
  rw [toMain_step, fsm, hs]

theorem cpuState_trap (hs : s.cpuState = .trap) : (s.step true i).cpuState = .trap := cpuState_of_fatal (main_trap hs) (.inr hs)

section Halting

variable {strb : BitVec 4} {data : Word32} (hn : NoFetch s) (hj : s.jumps = false)
  (hclear : s.clearPrefetchedHighWordQ = true → s.prefetchedHighWord = false)

theorem lastMemValid_reg (hn : NoFetch s) (h : s.lastMemValid = true → s.memLaFirstwordReg = false)
    (_ : (s.step true i).lastMemValid = true) : (s.step true i).memLaFirstwordReg = false := by
  rw [memLaFirstwordReg_step, hn.firstword]
  cases hl : s.lastMemValid with
  | false => rfl
  | true => exact h hl

include hn hj hclear

/-- The transaction that is under way stays on the bus until it is answered. -/
theorem Storing.halting (h : Storing strb data s) (hr : i.memReady = false) (hop : (s.step true i).regOp1 = s.regOp1) :
    Storing strb data (s.step true i) := by
  cases htrap : s.trap with
  | false => exact (h.wait ⟨hn, htrap, hj, hclear⟩ hr hop).2.1
  | true =>
    have hm := memFsm_trap (i := i) htrap
    rw [hr] at hm
    exact ⟨congrArg MemFsm.memState hm ▸ h.state, congrArg MemFsm.memValid hm ▸ h.valid, congrArg MemFsm.memInstr hm ▸ h.instr,
      congrArg MemFsm.memWstrb hm ▸ h.wstrb, congrArg MemFsm.memWdata hm ▸ h.wdata,
      ((congrArg MemFsm.memAddr hm).trans h.addr).trans (by rw [hop]), congrArg MemFsm.memLaSecondword hm, lastMemValid_reg hn h.reg⟩

theorem Loading.halting (h : Loading s) (hr : i.memReady = false) (hop : (s.step true i).regOp1 = s.regOp1) : Loading (s.step true i) := by
  cases htrap : s.trap with
  | false => exact (h.wait ⟨hn, htrap, hj, hclear⟩ hr hop).2.1
  | true =>
    have hm := memFsm_trap (i := i) htrap
    rw [hr] at hm
    exact ⟨congrArg MemFsm.memState hm ▸ h.state, congrArg MemFsm.memValid hm ▸ h.valid, congrArg MemFsm.memInstr hm ▸ h.instr,
      congrArg MemFsm.memWstrb hm ▸ h.wstrb, ((congrArg MemFsm.memAddr hm).trans h.addr).trans (by rw [hop]),
      congrArg MemFsm.memLaSecondword hm, lastMemValid_reg hn h.reg⟩

theorem Storing.halts (h : Storing strb data s) (hr : i.memReady = true) (hw : s.memDoWdata = true) (hne : strb ≠ 0) :
    (s.step true i).memValid = false ∧ s.access i = some (.write (wordAddr s.regOp1) (lanesOf strb data)) := by
  have hacc : s.access i = some (.write (wordAddr s.regOp1) (lanesOf strb data)) := by
    rw [access, h.valid, hr, h.instr, h.wstrb, h.wdata, h.addr, if_neg hne]
    rfl
  refine ⟨?_, hacc⟩
  cases htrap : s.trap with
  | false => exact (h.stored ⟨hn, htrap, hj, hclear⟩ hr hw hne).2.2.1.valid
  | true =>
    refine (congrArg MemFsm.memValid (memFsm_trap htrap)).trans ?_
    rw [hr]
    rfl

theorem Loading.halts (h : Loading s) (hr : i.memReady = true) (hd : s.memDoRdata = true) :
    (s.step true i).memValid = false ∧ s.access i = some (.read (wordAddr s.regOp1) i.memRdata) := by
  have hacc : s.access i = some (.read (wordAddr s.regOp1) i.memRdata) := by
    rw [access, h.valid, hr, h.instr, h.wstrb, h.addr]
    rfl
  refine ⟨?_, hacc⟩
  cases htrap : s.trap with
  | false => exact (h.loaded ⟨hn, htrap, hj, hclear⟩ hr hd).2.2.1.valid
  | true =>
    refine (congrArg MemFsm.memValid (memFsm_trap htrap)).trans ?_
    rw [hr]
    rfl

end Halting

theorem Stops.step (h : Stops code a s) : Advances code a s i := by
  have hm := main_trap (i := i) h.state
  have hn : NoFetch s := ⟨h.prefetch, h.rinst⟩
  have hop : (s.step true i).regOp1 = s.regOp1 := (congrArg Main.regOp1 hm).trans rfl
  have hrdata : (s.step true i).memDoRdata = (!s.memDone true i && s.memDoRdata) := memDoRdata_of hm
  have hwdata : (s.step true i).memDoWdata = (!s.memDone true i && s.memDoWdata) := memDoWdata_of hm
  have hjumps : (s.step true i).jumps = false := by
    rw [Core.jumps, show (s.step true i).latchedBranch = s.latchedBranch from (congrArg Main.latchedBranch hm).trans rfl,
      show (s.step true i).irqState = s.irqState from (congrArg Main.irqState hm).trans rfl]
    exact h.jumps
  have hprefetch : (s.step true i).memDoPrefetch = false := by
    rw [memDoPrefetch_of hm]
    change (!s.memDone true i && s.memDoPrefetch) = false
    rw [h.prefetch, Bool.and_false]
  have hrinst : (s.step true i).memDoRinst = false := by
    rw [memDoRinst_of hm]
    change (false || (!s.memDone true i && s.memDoRinst)) = false
    rw [h.rinst, Bool.and_false, Bool.or_false]
  have htrap : (s.step true i).trap = true := congrArg Main.trap hm
  -- the access is made as if its address were aligned
  have hstopped (hv : (s.step true i).memValid = false) (hdone : s.memDone true i = true) :
      Stopped code { a with stopped := true } (s.step true i) :=
    { stopped := rfl
      state := cpuState_trap h.state
      rdata := by rw [hrdata, hdone]; rfl
      wdata := by rw [hwdata, hdone]; rfl
      valid := fun h1 => by rw [hv] at h1; cases h1
      fetch := fun h0 => by rw [htrap] at h0; cases h0 }
  rcases h.access with ⟨op, rs1, rs2, imm, strb, data, hi, h1, hal, hw, hr, hne, hlanes, hst⟩ | ⟨op, rd, rs1, imm, hi, h1, hal, hr, hw, hload⟩
  · have hdone : s.memDone true i = i.memReady := hn.done (.inr hst.state) hst.valid (by rw [hw, Bool.or_true])
    cases hready : i.memReady with
    | false =>
      rw [hready] at hdone
      refine advances_of_phase (access_of_not_ready hready) (.stops
        { stopped := h.stopped
          state := cpuState_trap h.state
          jumps := hjumps
          clear := clearPrefetchedHighWordQ_step true
          prefetch := hprefetch
          rinst := hrinst
          fatal := h.fatal
          access := .inl ⟨op, rs1, rs2, imm, strb, data, hi, hop.trans h1, hop ▸ hal, ?_, ?_, hne, hop ▸ hlanes,
            hst.halting hn h.jumps h.clear hready hop⟩ })
      · rw [hwdata, hdone]
        exact hw
      · rw [hrdata, hdone]
        exact hr
    | true =>
      obtain ⟨hv, hacc⟩ := hst.halts hn h.jumps h.clear hready hw hne
      refine advances_of_insn (b := { a with stopped := true }) 0 h.stopped (fun rd hq => by rw [hi] at hq; cases hq) ?_
        (.stopped (hstopped hv (hdone.trans hready)))
      rw [hacc, hlanes, hi, h1]
      refine congrArg (some _, ·) ?_
      rw [error_eq, ← h1, hal, h.fatal]
      rfl
  · have hdone : s.memDone true i = i.memReady := hn.done (.inl hload.state) hload.valid (by rw [hr, Bool.or_true, Bool.true_or])
    cases hready : i.memReady with
    | false =>
      rw [hready] at hdone
      refine advances_of_phase (access_of_not_ready hready) (.stops
        { stopped := h.stopped
          state := cpuState_trap h.state
          jumps := hjumps
          clear := clearPrefetchedHighWordQ_step true
          prefetch := hprefetch
          rinst := hrinst
          fatal := h.fatal
          access := .inr ⟨op, rd, rs1, imm, hi, hop.trans h1, hop ▸ hal, ?_, ?_, hload.halting hn h.jumps h.clear hready hop⟩ })
      · rw [hrdata, hdone]
        exact hr
      · rw [hwdata, hdone]
        exact hw
    | true =>
      obtain ⟨hv, hacc⟩ := hload.halts hn h.jumps h.clear hready hr
      refine advances_of_insn (b := { a with stopped := true }) i.memRdata h.stopped (fun rd hq => by rw [hi] at hq; cases hq) ?_
        (.stopped (hstopped hv (hdone.trans hready)))
      rw [hacc, hi, h1]
      refine congrArg (some _, ·) ?_
      rw [error_eq, ← h1, hal, h.fatal]
      rfl

theorem Stopped.instr (h : Stopped code a s) (hv : (s.step true i).memValid = true) : (s.step true i).memInstr = true := by
  change (s.memFsm true i).memValid = true at hv
  change (s.memFsm true i).memInstr = true
  cases htrap : s.trap with
  | true =>
    rw [memFsm_trap htrap] at hv ⊢
    refine h.valid ?_
    cases hr : i.memReady with
    | false => rwa [hr] at hv
    | true => rw [hr] at hv; cases hv
  | false =>
    unfold memFsm at hv ⊢
    simp only [htrap, h.rdata, h.wdata, Bool.not_true, Bool.or_self, Bool.or_false, Bool.false_eq_true, ↓reduceIte] at hv ⊢
    by_cases h0 : s.memState = 0
    · simp only [h0, ↓reduceIte] at hv ⊢
      split at hv <;> simp_all [h.valid]
    by_cases h1 : s.memState = 1
    · have hinstr : s.memInstr = true := by
        rcases h.fetch htrap with hidle | ⟨T, -, hf⟩
        · exact absurd hidle.state h0
        · exact hf.instr (.inr h1)
      simp only [h1, BitVec.ofNat_eq_ofNat, BitVec.reduceEq, ↓reduceIte]
      repeat' split
      all_goals exact hinstr
    · simp only [h0, h1, ↓reduceIte] at hv ⊢
      repeat' split at hv
      all_goals simp_all [h.valid]

theorem Stopped.step (h : Stopped code a s) : Advances code a s i := by
  have hm := main_trap (i := i) h.state
  have htrap : (s.step true i).trap = true := congrArg Main.trap hm
  have hacc : s.access i = none := by
    cases hv : s.memValid with
    | false => exact access_of_not_valid hv
    | true => exact access_of_instr (h.valid hv)
  refine advances_of_phase hacc (.stopped
    { stopped := h.stopped
      state := cpuState_trap h.state
      rdata := ?_
      wdata := ?_
      valid := h.instr
      fetch := fun h0 => by rw [htrap] at h0; cases h0 })
  · rw [memDoRdata_of hm]
    change (false || (!s.memDone true i && s.memDoRdata)) = false
    rw [h.rdata, Bool.and_false, Bool.or_false]
  · rw [memDoWdata_of hm]
    change (false || (!s.memDone true i && s.memDoWdata)) = false
    rw [h.wdata, Bool.and_false, Bool.or_false]

end Core

end RiscvSoc.Cpu
