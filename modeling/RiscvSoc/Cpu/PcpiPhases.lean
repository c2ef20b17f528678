import RiscvSoc.Cpu.OperandPhases
/-!
# Co-processors and errors

An instruction that the core does not know goes to the co-processors. One of them answers in
time, or the instruction is an error like `ecall` and `ebreak`.
-/

namespace RiscvSoc.Cpu

open Rv32

namespace Core

variable {code : Word32 → Word32} {a : Arch} {s : Core} {i : CoreIn}

/-! ## The state `cpu_state_ld_rs1` -/

section Pcpi

variable {k : Kind} (hk : k = .pcpi ∨ k = .environment) (t : Vars)

include hk in
/-- A co-processor answers. -/
theorem ldRs1Of_ready (hr : s.pcpiIntReady = true) :
    s.ldRs1Of k i t = { t with
      regOp1 := s.cpuregsRs1 i, regOp2 := s.cpuregsRs2 i, regSh := (s.cpuregsRs2 i).setWidth 5
      memDoRinst := true, pcpiValid := false, regOut := s.pcpiIntRd i, latchedStore := s.pcpiIntWr, cpuState := .fetch } := by
  rcases hk with rfl | rfl <;> unfold ldRs1Of <;> simp only [hr, ↓reduceIte]

/-- It is waited for. -/
theorem ldRs1Of_wait (hr : s.pcpiIntReady = false) (ht : s.pcpiTimeout = false) :
    s.ldRs1Of .pcpi i t = { t with
      regOp1 := s.cpuregsRs1 i, regOp2 := s.cpuregsRs2 i, regSh := (s.cpuregsRs2 i).setWidth 5, pcpiValid := true } := by
  unfold ldRs1Of
  simp only [hr, ht, reduceCtorEq, decide_false, Bool.or_self, Bool.false_eq_true, ↓reduceIte]

/-- The instruction is refused, and an interrupt is raised. -/
theorem ldRs1Of_raise (hk : k = .pcpi ∧ s.pcpiTimeout = true ∨ k = .environment) (hr : s.pcpiIntReady = false)
    (hc : s.catches irqEbreak = true) :
    s.ldRs1Of k i t = { t with
      regOp1 := s.cpuregsRs1 i, regOp2 := s.cpuregsRs2 i, regSh := (s.cpuregsRs2 i).setWidth 5
      pcpiValid := false, nextIrqPending := t.nextIrqPending ||| (1 <<< irqEbreak), cpuState := .fetch } := by
  rcases hk with ⟨rfl, ht⟩ | rfl <;> unfold ldRs1Of
  · simp only [hr, ht, hc, Bool.true_or, Bool.false_eq_true, ↓reduceIte]
  · simp only [hr, hc, decide_true, Bool.or_true, Bool.false_eq_true, ↓reduceIte]

/-- It is refused, and the core stops. -/
theorem ldRs1Of_stop (hk : k = .pcpi ∧ s.pcpiTimeout = true ∨ k = .environment) (hr : s.pcpiIntReady = false)
    (hc : s.catches irqEbreak = false) :
    s.ldRs1Of k i t = { t with
      regOp1 := s.cpuregsRs1 i, regOp2 := s.cpuregsRs2 i, regSh := (s.cpuregsRs2 i).setWidth 5
      pcpiValid := false, cpuState := .trap } := by
  rcases hk with ⟨rfl, ht⟩ | rfl <;> unfold ldRs1Of
  · simp only [hr, ht, hc, Bool.true_or, Bool.false_eq_true, ↓reduceIte]
  · simp only [hr, hc, decide_true, Bool.or_true, Bool.false_eq_true, ↓reduceIte]

end Pcpi

/-- An edge on which an instruction is refused. -/
structure Refuses (code : Word32 → Word32) (a : Arch) (s : Core) (i : CoreIn) (k : Kind) : Prop where
  decodes : Decodes code a s
  state : s.cpuState = .ldRs1
  store : s.latchedStore = false
  ahead : Ahead code a s false
  insn : insnAt code a.pc = .illegal ∨ insnAt code a.pc = .base .environment
  kind : k = .pcpi ∧ s.pcpiTimeout = true ∨ k = .environment
  ready : s.pcpiIntReady = false
  main : (s.step true i).toMain = s.finish true i (s.ldRs1Of k i (s.defaults true i))
  mul : (s.step true i).mul.Quiet
  div : (s.step true i).div.Quiet

theorem Refuses.step {k : Kind} (h : Refuses code a s i k) (hc : Answers code s i) : Advances code a s i := by
  have hd := h.decodes
  have hs := ne_of_ldRs1 h.state
  have hm := h.main
  have hexec : a.exec (lengthAt code a.pc) 0 (insnAt code a.pc) = (none, a.error irqEbreak (a.next (lengthAt code a.pc))) := by
    rcases h.insn with hi | hi <;> rw [hi] <;> rfl
  have hu : ∀ rd, insnAt code a.pc = .waitirq rd → (0 : Word32) ≠ 0 := fun rd hw => by
    rcases h.insn with hi | hi <;> rw [hi] at hw <;> cases hw
  have herror : a.error irqEbreak (a.next (lengthAt code a.pc)) =
      if s.catches irqEbreak then a.next (lengthAt code a.pc) else { a with stopped := true } := by
    rw [Arch.error, catches, hd.mask, hd.active]
  rw [herror] at hexec
  cases hcatch : s.catches irqEbreak with
  | true =>
    rw [ldRs1Of_raise _ h.kind h.ready hcatch] at hm
    rw [hcatch, if_pos rfl] at hexec
    refine advances_of_insn 0 hd.stopped hu ?_ (hd.ends (b := a.next (lengthAt code a.pc)) hs h.ahead hc hm
      ⟨rfl, rfl, hd.branch, ⟨rfl, rfl, hd.rdata, hd.wdata⟩, rfl, rfl, rfl, rfl, rfl⟩ h.ahead.rinst (fun h0 => h0)
      ⟨congrArg Main.pcpiValid hm, .inl h.mul, .inl h.div⟩ (fun h0 => by cases h0) ⟨hd.stopped, hd.mask, rfl, rfl, ?_⟩)
    · rw [hexec, h.ahead.fetching.no_access]
    · change a.regs = if s.latchedStore then _ else a.regs
      rw [h.store, if_neg Bool.false_ne_true]
  | false =>
    have heq := ldRs1Of_stop (i := i) (s.defaults true i) h.kind h.ready hcatch
    rw [hcatch, if_neg Bool.false_ne_true] at hexec
    have ho : Onward (s.ldRs1Of k i (s.defaults true i)) s i := by
      rw [heq]
      exact ⟨rfl, hd.branch, rfl, ⟨rfl, rfl, hd.rdata, hd.wdata⟩, rfl, rfl, rfl, rfl⟩
    have hnext := ho.ahead hm hd hs h.ahead (h.ahead.not_done hd hc) hc (by rw [heq]; exact h.ahead.rinst) fun h0 => h0
    have hnone : NoData (s.step true i) := ho.noData.step hm
    have hexecuting : Executing code a (s.step true i) := hd.toExecuting.step hm (by rw [heq]; rfl) hs (by rw [heq]; exact hd.branch)
    rw [heq] at hm
    refine advances_of_insn (b := { a with stopped := true }) 0 hd.stopped hu ?_ (.stopped
      { stopped := rfl
        state := cpuState_of hm hd.busError
        rdata := hnone.rdata
        wdata := hnone.wdata
        valid := fun hv => hnext.fetching.instr (.inl hv)
        fetch := fun _ => .inr ⟨_, hexecuting.asks hnext.prefetch hnone.rdata hnone.wdata, hnext.rinst.symm ▸ hnext.fetching⟩ })
    rw [hexec, h.ahead.fetching.no_access]

/-! ## The co-processors work -/

theorem mulOp_of_refused (h : isMulDiv s.pcpiInsn = false) : s.pcpiReq.mulOp = none := by
  rw [PcpiReq.mulOp, pcpiReq, MulOp.ofInsn, h]
  exact ite_self none

theorem divOp_of_refused (h : isMulDiv s.pcpiInsn = false) : s.pcpiReq.divOp = none := by
  rw [PcpiReq.divOp, pcpiReq, DivOp.ofInsn, h]
  exact ite_self none

theorem pcpiIntReady_of_quiet (hm : s.mul.Quiet) (hd : s.div.Quiet) : s.pcpiIntReady = false := by
  rw [pcpiIntReady, hm.ready, hd.ready]
  rfl

/-- The core waits for a co-processor, which has had the instruction for some cycles or gets it now. -/
structure Waiting (code : Word32 → Word32) (a : Arch) (s : Core) (i : CoreIn) : Prop where
  decodes : Decodes code a s
  state : s.cpuState = .ldRs1
  store : s.latchedStore = false
  rd : s.latchedRd = s.decodedRd
  ahead : Ahead code a s false
  main : (s.step true i).toMain = s.finish true i (s.ldRs1Of .pcpi i (s.defaults true i))
  ready : s.pcpiIntReady = false
  timeout : s.pcpiTimeout = false

theorem Waiting.step (h : Waiting code a s i) (hc : Answers code s i)
    (hwork : PcpiWork a (s.step true i) (insnAt code a.pc)) : Advances code a s i := by
  have hm := h.main
  have hs := ne_of_ldRs1 h.state
  have heq := ldRs1Of_wait (i := i) (s.defaults true i) h.ready h.timeout
  have ho : Onward (s.ldRs1Of .pcpi i (s.defaults true i)) s i := by
    rw [heq]
    exact ⟨rfl, h.decodes.branch, rfl, ⟨rfl, rfl, h.decodes.rdata, h.decodes.wdata⟩, rfl, rfl, rfl, rfl⟩
  exact advances_of_phase h.ahead.fetching.no_access (.pcpi
    { toDecodes := ho.decodes hm h.decodes hs (by rw [h.ahead.rinst, Bool.false_and])
      state := (cpuState_of hm h.decodes.busError).trans (by rw [heq]; exact h.state)
      store := latchedStore_of hm (by rw [heq]; rfl) h.store
      rd := latchedRd_of hm (by rw [heq]; rfl) h.rd h.ahead.rinst
      fetch := ho.ahead hm h.decodes hs h.ahead (h.ahead.not_done h.decodes hc) hc (by rw [heq]; exact h.ahead.rinst) fun h0 => h0
      valid := (congrArg Main.pcpiValid hm).trans (by rw [heq]; rfl)
      work := hwork })

section Waiting

variable (h : Waiting code a s i)

include h

theorem Waiting.pcpiReq : (s.step true i).pcpiReq = ⟨true, s.pcpiInsn, s.cpuregsRs1 i, s.cpuregsRs2 i⟩ := by
  have hm := h.main
  rw [ldRs1Of_wait _ h.ready h.timeout] at hm
  rw [Core.pcpiReq, show (s.step true i).pcpiValid = true from congrArg Main.pcpiValid hm,
    show (s.step true i).pcpiInsn = s.pcpiInsn from congrArg DecodeSecond.pcpiInsn h.decodes.second,
    show (s.step true i).regOp1 = s.cpuregsRs1 i from congrArg Main.regOp1 hm,
    show (s.step true i).regOp2 = s.cpuregsRs2 i from congrArg Main.regOp2 hm]

theorem Waiting.regOp1 : (s.step true i).regOp1 = s.cpuregsRs1 i := congrArg PcpiReq.rs1 h.pcpiReq

theorem Waiting.regOp2 : (s.step true i).regOp2 = s.cpuregsRs2 i := congrArg PcpiReq.rs2 h.pcpiReq

theorem Waiting.counter : (s.step true i).pcpiTimeoutCounter = (s.defaults true i).pcpiTimeoutCounter := by
  have hm := h.main
  rw [ldRs1Of_wait _ h.ready h.timeout] at hm
  exact (congrArg Main.pcpiTimeoutCounter hm).trans rfl

theorem Waiting.timeout_step : (s.step true i).pcpiTimeout = decide (s.pcpiTimeoutCounter = 0) := by
  have hm := h.main
  rw [ldRs1Of_wait _ h.ready h.timeout] at hm
  exact congrArg Main.pcpiTimeout hm

variable {σ ι α : Type} {step : Bool → σ → ι → σ} {m : Sync.Service step α PcpiReq} {u : σ} {k : ℕ} {op : α} {j : ι}

/-- The time does not run out while a co-processor works. -/
theorem Waiting.next (hs : Serves s m u k op) (hk : k < m.latency op) (hj : m.port j = s.pcpiReq)
    (hreq : (s.step true i).pcpiReq = s.pcpiReq) (hwait : 2 ≤ k → s.pcpiIntWait = true) :
    Serves (s.step true i) m (step true u j) (k + 1) op := by
  have hcounter := hs.counter
  have hne : s.pcpiTimeoutCounter ≠ 0 := fun h0 => by
    rw [h0] at hcounter
    simp at hcounter
  refine ⟨?_, hk, hreq ▸ hs.req, ?_, ?_⟩
  · rw [hreq, ← hj]
    exact Sync.Service.Has.next (hj ▸ hs.has) (hj ▸ hs.req) hk
  · rw [h.timeout_step, decide_eq_false hne]
  · rw [h.counter]
    change 15 ≤ (if (true && s.pcpiValid && !s.pcpiIntWait) = true then
      (if s.pcpiTimeoutCounter ≠ 0 then s.pcpiTimeoutCounter - 1 else s.pcpiTimeoutCounter) else 15#4).toNat + min (k + 1) 2
    rw [if_pos hne]
    split
    · rename_i hrun
      have hlt : k < 2 := by
        by_contra h2
        rw [hwait (by omega)] at hrun
        simp at hrun
      have h15 := s.pcpiTimeoutCounter.isLt
      rw [BitVec.toNat_sub, show (1 : BitVec 4).toNat = 1 from rfl]
      omega
    · change 15 ≤ 15 + _
      omega

end Waiting

theorem Insn.of_kind_pcpi {n : Insn} (h : n.kind = .pcpi) :
    (∃ op rd rs1 rs2, n = .base (.mul op rd rs1 rs2)) ∨ (∃ op rd rs1 rs2, n = .base (.div op rd rs1 rs2)) ∨ n = .illegal := by
  cases n with
  | base n =>
    cases n with
    | mul op rd rs1 rs2 => exact .inl ⟨op, rd, rs1, rs2, rfl⟩
    | div op rd rs1 rs2 => exact .inr (.inl ⟨op, rd, rs1, rs2, rfl⟩)
    | _ => cases h
  | illegal => exact .inr (.inr rfl)
  | _ => cases h

theorem ReadsOperands.environment (h : ReadsOperands code a s) (hc : Answers code s i)
    (hi : insnAt code a.pc = .base .environment) : Advances code a s i := by
  have hk : (insnAt code a.pc).kind = .environment := by rw [hi]; rfl
  have hunits := h.pcpi.rest.units (i := i)
  exact Refuses.step (k := .environment) ⟨h.toDecodes, h.state, h.store, h.ahead hk Kind.noConfusion Kind.noConfusion, .inr hi, .inr rfl,
    pcpiIntReady_of_quiet h.pcpi.mul h.pcpi.div, h.main hk, hunits.1, hunits.2⟩ hc

/-- The request is made. -/
theorem ReadsOperands.requests (h : ReadsOperands code a s) (hc : Answers code s i) (hk : (insnAt code a.pc).kind = .pcpi) :
    Advances code a s i := by
  have hw : Waiting code a s i := ⟨h.toDecodes, h.state, h.store, h.rd, h.ahead hk Kind.noConfusion Kind.noConfusion, h.main hk,
    pcpiIntReady_of_quiet h.pcpi.mul h.pcpi.div, h.timeout⟩
  have hunits := h.pcpi.rest.units (i := i)
  have hcounter : (s.step true i).pcpiTimeoutCounter = 15 := by
    rw [hw.counter]
    change (if (true && s.pcpiValid && !s.pcpiIntWait) = true then _ else 15#4) = 15
    rw [h.pcpi.valid]
    rfl
  have htimeout : (s.step true i).pcpiTimeout = false := by
    rw [hw.timeout_step, h.pcpi.counter]
    rfl
  have hops := h.insn.operands
  refine hw.step hc ?_
  rcases Insn.of_kind_pcpi hk with ⟨op, rd, rs1, rs2, hi⟩ | ⟨op, rd, rs1, rs2, hi⟩ | hi
  · rw [hi] at hops ⊢
    refine .mul op rd rs1 rs2 0 ⟨.start hunits.1, Nat.zero_le _, ?_, htimeout, by rw [hcounter]; simp⟩ hunits.2
      (hw.regOp1.trans (cpuregsRs1_eq h.regs hops.2.1)) (hw.regOp2.trans (cpuregsRs2_eq h.regs hops.2.2.1))
    rw [hw.pcpiReq]
    exact hops.2.2.2
  · rw [hi] at hops ⊢
    refine .div op rd rs1 rs2 0 ⟨.start hunits.2, Nat.zero_le _, ?_, htimeout, by rw [hcounter]; simp⟩ hunits.1
      (hw.regOp1.trans (cpuregsRs1_eq h.regs hops.2.1)) (hw.regOp2.trans (cpuregsRs2_eq h.regs hops.2.2.1))
    rw [hw.pcpiReq]
    exact hops.2.2.2
  · rw [hi] at hops ⊢
    refine .none ⟨?_, hunits.1, hunits.2⟩
    rw [show (s.step true i).pcpiInsn = s.pcpiInsn from congrArg DecodeSecond.pcpiInsn h.toDecodes.second]
    exact hops

/-- The first cycle of any instruction. -/
theorem ReadsOperands.step (h : ReadsOperands code a s) (hc : Answers code s i) : Advances code a s i := by
  have hf := h.insn.flags
  cases hi : insnAt code a.pc with
  | base n =>
    cases n with
    | lui => exact h.lui hc hi
    | auipc => exact h.auipc hc hi
    | jal =>
      rw [hi] at hf
      cases hf.jal.symm.trans h.jal
    | jalr => exact h.jalr hi
    | branch => exact h.branch' hc hi
    | load => exact h.load hc hi
    | store => exact h.store' hc hi
    | imm => exact h.imm hc hi
    | shiftImm => exact h.shiftImm hc hi
    | alu => exact h.alu hc hi
    | shift => exact h.shift hc hi
    | mul | div => exact h.requests hc (by rw [hi]; rfl)
    | counter => exact h.counter hc hi
    | fence => exact h.fence hc hi
    | environment => exact h.environment hc hi
  | illegal => exact h.requests hc (by rw [hi]; rfl)
  | getq => exact h.getq hc hi
  | setq => exact h.setq hc hi
  | retirq => exact h.retirq hi
  | maskirq => exact h.maskirq hc hi
  | timer => exact h.timer hc hi
  | waitirq =>
    rw [hi] at hf
    cases hf.waitirq.symm.trans h.waitirq

/-! ## A co-processor has the instruction -/

theorem AwaitsPcpi.main (h : AwaitsPcpi code a s) : (s.step true i).toMain = s.finish true i (s.ldRs1Of .pcpi i (s.defaults true i)) := by
  have hk : (insnAt code a.pc).kind = .pcpi := by
    have hwork := h.work
    generalize insnAt code a.pc = n at hwork ⊢
    cases hwork <;> rfl
  rw [toMain_step, fsm, h.state]
  exact congrArg _ (ldRs1_eq (hk ▸ h.insn.flags) (fun hne => absurd rfl hne) _)

theorem AwaitsPcpi.waiting (h : AwaitsPcpi code a s) (hr : s.pcpiIntReady = false) (ht : s.pcpiTimeout = false) : Waiting code a s i :=
  ⟨h.toDecodes, h.state, h.store, h.rd, h.fetch, h.main, hr, ht⟩

/-- The request stays as it is. -/
theorem AwaitsPcpi.request_stays (h : AwaitsPcpi code a s) (hw : Waiting code a s i) {rs1 rs2 : Reg} (hd1 : s.decodedRs1 = rs1.setWidth 6)
    (hd2 : s.decodedRs2 = rs2) (h1 : s.regOp1 = a.x rs1) (h2 : s.regOp2 = a.x rs2) : (s.step true i).pcpiReq = s.pcpiReq := by
  rw [hw.pcpiReq, pcpiReq, h.valid, cpuregsRs1_eq h.regs hd1, cpuregsRs2_eq h.regs hd2, h1, h2]

/-- A co-processor answers with the result `x`. -/
theorem AwaitsPcpi.answered (h : AwaitsPcpi code a s) (hc : Answers code s i) (hr : s.pcpiIntReady = true) {rd : Reg} {x : Word32}
    (hrd : s.decodedRd = rd.setWidth 6) (hwr : s.pcpiIntWr = true) (hx : s.pcpiIntRd i = x)
    (he : a.exec (lengthAt code a.pc) 0 (insnAt code a.pc) = (none, a.result (lengthAt code a.pc) rd x))
    (hw : ∀ rd', insnAt code a.pc ≠ .waitirq rd')
    (hmul : (s.step true i).mul.Quiet ∨ PcpiMul.service.Drained (s.step true i).mul) (hdiv : (s.step true i).div.Quiet) :
    Advances code a s i := by
  have hm := h.main (i := i)
  rw [ldRs1Of_ready (.inl rfl) _ hr] at hm
  have hphase := h.toDecodes.ends (b := a.result (lengthAt code a.pc) rd x) (q := true) (ne_of_ldRs1 h.state) h.fetch hc hm
    ⟨rfl, rfl, h.branch, ⟨rfl, rfl, h.rdata, h.wdata⟩, rfl, rfl, rfl, rfl, rfl⟩ rfl (fun _ => rfl)
    ⟨congrArg Main.pcpiValid hm, hmul, .inl hdiv⟩ (fun h0 => by cases h0) ⟨h.stopped, h.mask, rfl, rfl, ?_⟩
  · refine advances_of_insn 0 h.stopped (fun rd' hi => absurd hi (hw rd')) ?_ hphase
    rw [he, h.fetch.fetching.no_access]
  · change (a.write (rd.setWidth 6) x).regs =
      if s.pcpiIntWr then (a.write s.latchedRd (if s.latchedStalu then s.aluOut i else s.pcpiIntRd i)).regs else a.regs
    rw [hwr, if_pos rfl, h.stalu, if_neg Bool.false_ne_true, hx, h.rd, hrd]

/-- A request is for one of the two. -/
theorem PcpiReq.not_both {q : PcpiReq} {op : MulOp} {op' : DivOp} (h : q.mulOp = some op) : q.divOp ≠ some op' := by
  rw [PcpiReq.mulOp] at h
  rw [PcpiReq.divOp]
  cases hv : q.valid with
  | false => rw [hv] at h; cases h
  | true =>
    rw [hv, if_pos rfl] at h
    exact ofInsn_exclusive h

theorem Insn.base_ne_waitirq (n : Instr) (rd : Reg) : Insn.base n ≠ .waitirq rd := Insn.noConfusion

section Served

variable (h : AwaitsPcpi code a s) (hc : Answers code s i)

include h hc

/-- The multiplier works or answers. -/
theorem AwaitsPcpi.mul {op : MulOp} {rd rs1 rs2 : Reg} {k : ℕ} (hi : insnAt code a.pc = .base (.mul op rd rs1 rs2))
    (hs : Serves s PcpiMul.service s.mul k op) (hq : s.div.Quiet) (h1 : s.regOp1 = a.x rs1) (h2 : s.regOp2 = a.x rs2) :
    Advances code a s i := by
  have hops := h.insn.operands
  rw [hi] at hops
  have hready : s.mul.pcpiReady = decide (k = PcpiMul.service.latency op) := hs.has.ready hs.le
  have hdiv : (s.step true i).div.Quiet := PcpiDiv.service.idle (i := ⟨s.pcpiReq, i.undef.pcpiRd⟩) hq
    (Option.eq_none_iff_forall_ne_some.2 fun _ => PcpiReq.not_both hs.req)
  rcases hs.le.lt_or_eq with hlt | rfl
  · have hno : s.pcpiIntReady = false := by
      rw [pcpiIntReady, hready, hq.ready, decide_eq_false hlt.ne]
      rfl
    have hw : Waiting code a s i := h.waiting hno hs.timeout
    have hreq := h.request_stays hw hops.2.1 hops.2.2.1 h1 h2
    have hwait (h2k : 2 ≤ k) : s.pcpiIntWait = true := by
      obtain ⟨-⟩ | ⟨-, hstage⟩ := hs.has
      · omega
      · rw [pcpiIntWait, PcpiMul.Stage.waits hstage h2k, Bool.true_or]
    refine hw.step hc ?_
    rw [hi]
    exact .mul op rd rs1 rs2 (k + 1) (hw.next hs hlt rfl hreq hwait) hdiv ((congrArg PcpiReq.rs1 hreq).trans h1)
      ((congrArg PcpiReq.rs2 hreq).trans h2)
  · have hyes : s.mul.pcpiReady = true := hready.trans (decide_eq_true rfl)
    have hans := PcpiMul.Stage.last hs.has.last
    refine h.answered hc (by rw [pcpiIntReady, hyes, Bool.true_or]) hops.1 ?_ ?_ (by rw [hi]; rfl) (by rw [hi]; exact Insn.base_ne_waitirq _)
      (.inr (PcpiMul.service.drain hs.has.last hs.req)) hdiv
    · rw [pcpiIntWr, hyes, if_pos rfl]
      exact hans.wr
    · rw [pcpiIntRd, hyes, if_pos rfl, ← h1, ← h2]
      exact hans.rd

theorem AwaitsPcpi.div {op : DivOp} {rd rs1 rs2 : Reg} {k : ℕ} (hi : insnAt code a.pc = .base (.div op rd rs1 rs2))
    (hs : Serves s PcpiDiv.service s.div k op) (hq : s.mul.Quiet) (h1 : s.regOp1 = a.x rs1) (h2 : s.regOp2 = a.x rs2) :
    Advances code a s i := by
  have hops := h.insn.operands
  rw [hi] at hops
  have hready : s.div.pcpiReady = decide (k = PcpiDiv.service.latency op) := hs.has.ready hs.le
  have hmul : (s.step true i).mul.Quiet :=
    PcpiMul.service.idle hq (Option.eq_none_iff_forall_ne_some.2 fun _ hm => PcpiReq.not_both hm hs.req)
  rcases hs.le.lt_or_eq with hlt | rfl
  · have hno : s.pcpiIntReady = false := by
      rw [pcpiIntReady, hready, hq.ready, decide_eq_false hlt.ne]
      rfl
    have hw : Waiting code a s i := h.waiting hno hs.timeout
    have hreq := h.request_stays hw hops.2.1 hops.2.2.1 h1 h2
    have hwait (h2k : 2 ≤ k) : s.pcpiIntWait = true := by
      obtain ⟨-⟩ | ⟨-, hstage⟩ := hs.has
      · omega
      · rw [pcpiIntWait, PcpiDiv.Stage.waits hstage h2k, Bool.or_true]
    refine hw.step hc ?_
    rw [hi]
    have hnext : Serves (s.step true i) PcpiDiv.service (s.step true i).div (k + 1) op :=
      hw.next (m := PcpiDiv.service) (j := DivIn.mk s.pcpiReq i.undef.pcpiRd) hs hlt rfl hreq hwait
    exact .div op rd rs1 rs2 (k + 1) hnext hmul ((congrArg PcpiReq.rs1 hreq).trans h1)
      ((congrArg PcpiReq.rs2 hreq).trans h2)
  · have hyes : s.div.pcpiReady = true := hready.trans (decide_eq_true rfl)
    have hans : PcpiDiv.Answers op (op.eval s.pcpiReq.rs1 s.pcpiReq.rs2) s.div := hs.has.last
    refine h.answered hc (by rw [pcpiIntReady, hyes, Bool.or_true]) hops.1 ?_ ?_ (by rw [hi]; rfl) (by rw [hi]; exact Insn.base_ne_waitirq _)
      (.inl hmul) (PcpiDiv.service.drain (i := ⟨s.pcpiReq, i.undef.pcpiRd⟩) hs.has.last hs.req)
    · rw [pcpiIntWr, hq.ready, if_neg Bool.false_ne_true, hyes, if_pos rfl]
      exact hans.wr
    · rw [pcpiIntRd, hq.ready, if_neg Bool.false_ne_true, hyes, if_pos rfl, ← h1, ← h2]
      exact hans.rd

/-- None takes the instruction: it is refused when the time is over. -/
theorem AwaitsPcpi.none (hi : insnAt code a.pc = .illegal) (hr : Refused s) : Advances code a s i := by
  have hmul : (s.step true i).mul.Quiet := PcpiMul.service.idle hr.mul (mulOp_of_refused hr.insn)
  have hdiv : (s.step true i).div.Quiet :=
    PcpiDiv.service.idle (i := ⟨s.pcpiReq, i.undef.pcpiRd⟩) hr.div (divOp_of_refused hr.insn)
  have hno := pcpiIntReady_of_quiet hr.mul hr.div
  cases ht : s.pcpiTimeout with
  | true => exact Refuses.step ⟨h.toDecodes, h.state, h.store, h.fetch, .inl hi, .inl ⟨rfl, ht⟩, hno, h.main, hmul, hdiv⟩ hc
  | false =>
    refine (h.waiting hno ht).step hc ?_
    rw [hi]
    refine .none ⟨?_, hmul, hdiv⟩
    rw [show (s.step true i).pcpiInsn = s.pcpiInsn from congrArg DecodeSecond.pcpiInsn h.toDecodes.second]
    exact hr.insn

theorem AwaitsPcpi.step : Advances code a s i := by
  have hwork := h.work
  generalize hn : insnAt code a.pc = n at hwork
  cases hwork with
  | mul op rd rs1 rs2 k hs hq h1 h2 => exact h.mul hc hn hs hq h1 h2
  | div op rd rs1 rs2 k hs hq h1 h2 => exact h.div hc hn hs hq h1 h2
  | none hr => exact h.none hc hn hr

end Served

end Core

end RiscvSoc.Cpu
