import RiscvSoc.Cpu.Refinement
/-!
# The assertions of the memory interface

What the source asserts in the section of its memory interface is true in every cycle in
which the core runs, so a request stays on the bus as it is until it is answered.
-/

namespace RiscvSoc.Cpu

open Sync

/-- What the core asks of the memory. -/
def MemFsm.request (m : MemFsm) : Option (Word32 × Bool × BitVec 4 × Word32) :=
  offered m.memValid (m.memAddr, m.memInstr, m.memWstrb, m.memWdata)

namespace Core

variable {code : Word32 → Word32} {a : Arch} {s : Core} {i : CoreIn} {T : Word32}

/-- The assertions of that section, for a cycle without reset and trap. -/
structure Asserted (s : Core) : Prop where
  noWrite : (s.memDoPrefetch || s.memDoRinst || s.memDoRdata) = true → s.memDoWdata = false
  noRead : (s.memDoPrefetch || s.memDoRinst) = true → s.memDoRdata = false
  noFetch : s.memDoRdata = true → s.memDoPrefetch = false ∧ s.memDoRinst = false
  noOther : s.memDoWdata = true → (s.memDoPrefetch || s.memDoRinst || s.memDoRdata) = false
  busy : s.memState = 2 ∨ s.memState = 3 → (s.memValid || s.memDoPrefetch) = true
  reads : s.memState = 1 → s.memWstrb = 0 ∧ (s.memDoPrefetch || s.memDoRinst || s.memDoRdata) = true ∧
    s.memValid = !s.memLaUsePrefetchedHighWord true ∧ s.memInstr = (s.memDoPrefetch || s.memDoRinst)
  writes : s.memState = 2 → s.memWstrb ≠ 0 ∧ s.memDoWdata = true
  collects : s.memState = 3 → s.memWstrb = 0 ∧ s.memDoPrefetch = true

/-! ## What the interface is doing -/

/-- At most one kind of transfer is asked for. -/
def Exclusive (s : Core) : Prop := NoData s ∨ NoFetch s ∧ (s.memDoRdata = false ∨ s.memDoWdata = false)

inductive Activity (code : Word32 → Word32) (s : Core) : Prop
  | idle (h : Idle s) (hx : Exclusive s)
  | fetches (T : Word32) (ha : Asks T s) (h : Fetching code T s.memDoRinst s)
  | strays (U : Word32) (h : Stray U s) (hn : NoData s) (hr : s.memDoRinst = true) (hj : s.jumps = true)
  | loads (h : Loading s) (hn : NoFetch s) (hr : s.memDoRdata = true) (hw : s.memDoWdata = false)
  | stores (strb : BitVec 4) (data : Word32) (h : Storing strb data s) (hne : strb ≠ 0) (hn : NoFetch s) (hr : s.memDoRdata = false)
    (hw : s.memDoWdata = true)

theorem Activity.exclusive (h : Activity code s) : Exclusive s := by
  cases h with
  | idle _ hx => exact hx
  | fetches _ ha => exact .inl ⟨ha.rdata, ha.wdata⟩
  | strays _ _ hn => exact .inl hn
  | loads _ hn _ hw => exact .inr ⟨hn, .inr hw⟩
  | stores _ _ _ _ hn hr => exact .inr ⟨hn, .inl hr⟩

/-- Where a fetch may be. -/
theorem Fetching.memState {r : Bool} (h : Fetching code T r s) :
    (s.memState = 0 ∧ s.memValid = false) ∨ s.memState = 1 ∨ (s.memState = 3 ∧ s.memValid = false) := by
  cases h with
  | idle h => exact .inl ⟨h.state, h.valid⟩
  | first h => exact .inr (.inl h.state)
  | high h => exact .inr (.inl h.state)
  | second h => exact .inr (.inl h.state)
  | prefetched h => exact .inr (.inr ⟨h.state, h.valid⟩)

theorem Fetching.valid (h : Fetching code T s.memDoRinst s) (ha : Asks T s) (hs : s.memState = 1) :
    s.memValid = !s.memLaUsePrefetchedHighWord true := by
  cases h with
  | idle h => rw [h.state] at hs; cases hs
  | first h => rw [h.valid, h.usePrefetched ha]; rfl
  | high h hj => rw [h.valid, h.usePrefetched ha hj]; rfl
  | second h => rw [h.valid, h.usePrefetched ha]; rfl
  | prefetched h => rw [h.state] at hs; cases hs

/-- No request without a transfer. -/
theorem Activity.rests (h : Activity code s) (hs : s.memState = 0 ∨ s.memState = 3) : s.memValid = false := by
  cases h with
  | idle h => exact h.valid
  | fetches _ _ h =>
    rcases h.memState with ⟨-, hv⟩ | h1 | ⟨-, hv⟩
    · exact hv
    · simp [h1] at hs
    · exact hv
  | strays _ h => simp [h.state] at hs
  | loads h => simp [h.state] at hs
  | stores _ _ h => simp [h.state] at hs

theorem Activity.reads (h : Activity code s) (hs : s.memState = 1) :
    (s.memDoPrefetch || s.memDoRinst || s.memDoRdata) = true ∧ s.memValid = (!s.memLaUsePrefetchedHighWord true) ∧
      s.memInstr = (s.memDoPrefetch || s.memDoRinst) := by
  cases h with
  | idle h => simp [h.state] at hs
  | fetches _ ha h => exact ⟨by rw [ha.asks, Bool.true_or], h.valid ha hs, (h.instr (.inr hs)).trans ha.asks.symm⟩
  | strays _ h _ hr hj =>
    refine ⟨by rw [hr, Bool.or_true, Bool.true_or], ?_, by rw [h.instr, hr, Bool.or_true]⟩
    rw [h.valid, usePrefetched_of_jumps hj]
    rfl
  | loads h hn hr =>
    refine ⟨by rw [hr, Bool.or_true], ?_, by rw [h.instr, hn.prefetch, hn.rinst]; rfl⟩
    rw [h.valid, hn.usePrefetched]
    rfl
  | stores _ _ h => simp [h.state] at hs

theorem Activity.writes (h : Activity code s) (hs : s.memState = 2) : s.memWstrb ≠ 0 ∧ s.memDoWdata = true ∧ s.memValid = true := by
  cases h with
  | idle h => simp [h.state] at hs
  | fetches _ _ h =>
    rcases h.memState with ⟨h0, -⟩ | h1 | ⟨h3, -⟩
    · simp [h0] at hs
    · simp [h1] at hs
    · simp [h3] at hs
  | strays _ h => simp [h.state] at hs
  | loads h => simp [h.state] at hs
  | stores _ _ h hne _ _ hw => exact ⟨h.wstrb ▸ hne, hw, h.valid⟩

/-! ## The phases -/

theorem Decodes.activity {r : Bool} (h : Decodes code a s) (hf : Ahead code a s r) : Activity code s := by
  obtain ⟨hp, rfl, hfetch⟩ := hf
  exact .fetches _ (h.toExecuting.asks hp h.rdata h.wdata) hfetch

theorem Still.activity (h : Still s) (hn : NoData s) : Activity code s := .idle h.idle (.inl hn)

theorem StoreUnderWay.activity {op : Rv32.StoreOp} (h : StoreUnderWay s op) (hn : NoFetch s) : Activity code s := by
  rcases h.transfer with hidle | ⟨strb, data, hne, -, hst⟩
  · exact .idle hidle (.inr ⟨hn, .inl h.rdata⟩)
  · exact .stores strb data hst hne hn h.rdata h.wdata

theorem LoadUnderWay.activity {op : Rv32.LoadOp} (h : LoadUnderWay s op) (hn : NoFetch s) : Activity code s := by
  rcases h.transfer with hidle | hload
  · exact .idle hidle (.inr ⟨hn, .inr h.wdata⟩)
  · exact .loads hload hn h.rdata h.wdata

theorem Phase.activity (h : Phase code a s) (htrap : s.trap = false) : Activity code s := by
  cases h with
  | fetch h =>
    rcases h.fetch with ⟨-, -, hidle, -⟩ | ⟨ha, hf⟩
    · exact .idle hidle (.inl h.toNoData)
    · exact .fetches _ ha hf
  | dispatch h => exact h.toStill.activity h.toNoData
  | waits h => exact h.toStill.activity h.toNoData
  | savesPc h => exact .idle h.idle (.inl h.toNoData)
  | savesIrq h => exact .idle h.idle (.inl h.toNoData)
  | operands h =>
    have hf := h.fetch
    split at hf
    · exact hf.activity h.toNoData
    · exact h.toDecodes.activity hf
  | pcpi h => exact h.toDecodes.activity h.fetch
  | computes h =>
    have hf := h.fetch
    split at hf
    · exact hf.activity h.toNoData
    · obtain ⟨hp, hr, hseq⟩ := hf
      exact .fetches _ (h.toExecuting.asks hp h.rdata h.wdata) (hr ▸ hseq.fetching h.toExecuting.jumps)
  | fallsThrough h => exact h.toDecodes.activity h.fetch
  | branches U h =>
    rcases h.stray with hst | hidle
    · exact .strays U hst h.toNoData h.rinst (by rw [Core.jumps, h.branch, Bool.true_or])
    · exact .idle hidle (.inl h.toNoData)
  | shifts h => exact h.toDecodes.activity h.fetch
  | storeFetches h => exact h.toDecodes.activity h.fetch
  | loadFetches h => exact h.toDecodes.activity h.fetch
  | stores h =>
    obtain ⟨op, rs1, rs2, imm, -, -, -, hw⟩ := h.access
    exact hw.activity ⟨h.prefetch, h.rinst⟩
  | loads h =>
    obtain ⟨op, rd, rs1, imm, -, -, -, hw⟩ := h.access
    exact hw.activity ⟨h.prefetch, h.rinst⟩
  | stops h =>
    have hn : NoFetch s := ⟨h.prefetch, h.rinst⟩
    rcases h.access with ⟨op, rs1, rs2, imm, strb, data, -, -, -, hw, hr, hne, -, hst⟩ | ⟨op, rd, rs1, imm, -, -, -, hr, hw, hload⟩
    · exact .stores strb data hst hne hn hr hw
    · exact .loads hload hn hr hw
  | stopped h =>
    rcases h.fetch htrap with hidle | ⟨T, ha, hf⟩
    · exact .idle hidle (.inl ⟨h.rdata, h.wdata⟩)
    · exact .fetches T ha hf

theorem Phase.idle_of_trigger (h : Phase code a s) (hs : s.cpuState = .fetch) (ht : s.decoderTrigger = true) : s.memState = 0 := by
  cases h with
  | fetch h => rw [h.trigger] at ht; cases ht
  | dispatch h => exact h.idle.state
  | waits h => exact h.idle.state
  | savesPc h => exact h.idle.state
  | savesIrq h => exact h.idle.state
  | operands h => exact absurd hs (ne_of_ldRs1 h.state)
  | pcpi h => exact absurd hs (ne_of_ldRs1 h.state)
  | computes h => exact absurd hs (ne_of_exec h.state)
  | fallsThrough h => exact absurd hs (ne_of_exec h.state)
  | branches _ h => exact absurd hs (ne_of_exec h.state)
  | shifts h => exact absurd hs (ne_of_shift h.state)
  | storeFetches h => exact absurd hs (ne_of_stmem h.state)
  | loadFetches h => exact absurd hs (ne_of_ldmem h.state)
  | stores h => exact absurd hs (ne_of_stmem h.state)
  | loads h => exact absurd hs (ne_of_ldmem h.state)
  | stops h => rw [h.state] at hs; cases hs
  | stopped h => rw [h.state] at hs; cases hs

/-! ## What stays from one read to the end of its prefetch -/

/-- A read has no write strobes. -/
def Cleared (s : Core) : Prop := s.memState = 1 ∨ s.memState = 3 → s.memWstrb = 0

theorem Cleared.step (h : Cleared s) : Cleared (s.step true i) := by
  intro hs
  change (s.memFsm true i).memState = 1 ∨ (s.memFsm true i).memState = 3 at hs
  change (s.memFsm true i).memWstrb = 0
  cases htrap : s.trap with
  | true =>
    rw [memFsm_trap htrap] at hs ⊢
    exact h hs
  | false =>
    unfold memFsm at hs ⊢
    simp only [htrap, Bool.not_true, Bool.or_self, Bool.false_eq_true, ↓reduceIte] at hs ⊢
    by_cases h0 : s.memState = 0
    · simp only [h0, ↓reduceIte] at hs ⊢
      split
      · rfl
      · rename_i hr
        simp only [hr, Bool.false_eq_true, ↓reduceIte] at hs
        split at hs <;> simp at hs
    · simp only [h0, memLaWrite_of_ne h0, Bool.or_false, Bool.false_eq_true, ↓reduceIte] at hs ⊢
      by_cases h2 : s.memState = 2
      · simp only [h2, BitVec.ofNat_eq_ofNat, BitVec.reduceEq, ↓reduceIte] at hs
        split at hs <;> simp at hs
      · have hw : s.memWstrb = 0 := h (by
          have hall : ∀ x : BitVec 2, x ≠ 0 → x ≠ 2 → x = 1 ∨ x = 3 := by decide
          exact hall _ h0 h2)
        simp only [h2, hw, ite_self, ↓reduceIte, apply_ite MemFsm.memWstrb]

theorem cleared_reset (s : Core) (i : CoreIn) : Cleared (s.step false i) := by
  intro hs
  rcases hs with h | h <;> cases h

/-- Only the first cycle of an instruction changes what is prefetched. -/
theorem fsm_memDoPrefetch (h : s.cpuState = .fetch → s.decoderTrigger = false) (t : Vars) :
    (s.fsm true i t).memDoPrefetch = t.memDoPrefetch := by
  cases hs : s.cpuState with
  | trap => simp only [fsm, hs]
  | fetch =>
    simp only [fsm, hs, fetch, h hs, Bool.false_or, Bool.false_eq_true, ↓reduceIte, apply_ite Vars.toMain, apply_ite Main.memDoPrefetch, ite_self]
  | ldRs1 => simp only [fsm, hs, ldRs1, apply_ite Vars.toMain, apply_ite Main.memDoPrefetch, ite_self]
  | exec => simp only [fsm, hs, exec, apply_ite Vars.toMain, apply_ite Main.memDoPrefetch, ite_self]
  | shift => simp only [fsm, hs, shift, apply_ite Vars.toMain, apply_ite Main.memDoPrefetch, ite_self]
  | stmem => simp only [fsm, hs, stmem, apply_ite Vars.toMain, apply_ite Main.memDoPrefetch, ite_self]
  | ldmem => simp only [fsm, hs, ldmem, apply_ite Vars.toMain, apply_ite Main.memDoPrefetch, ite_self]

/-- A prefetch has just been read, or waits to be asked for. -/
theorem memState_of_three (htrap : s.trap = false) (hs : (s.memFsm true i).memState = 3) :
    s.memDoRinst = false ∧ (s.memState = 1 ∧ s.memDoRdata = false ∨ s.memState = 3) := by
  unfold memFsm at hs
  simp only [htrap, Bool.not_true, Bool.or_self, Bool.false_eq_true, ↓reduceIte] at hs
  by_cases h0 : s.memState = 0
  · simp only [h0, ↓reduceIte] at hs
    repeat' split at hs
    all_goals simp at hs
  by_cases h1 : s.memState = 1
  · simp only [h1, BitVec.ofNat_eq_ofNat, BitVec.reduceEq, ↓reduceIte, apply_ite MemFsm.memState] at hs
    repeat' split at hs
    all_goals simp_all
  by_cases h2 : s.memState = 2
  · simp only [h2, BitVec.ofNat_eq_ofNat, BitVec.reduceEq, ↓reduceIte] at hs
    split at hs <;> simp at hs
  · simp only [h0, h1, h2, ↓reduceIte] at hs
    split at hs
    · simp at hs
    · rename_i hr
      exact ⟨Bool.eq_false_iff.2 hr, .inr hs⟩

theorem Exclusive.noData (h : Exclusive s) (hp : s.memDoPrefetch = true) : NoData s := by
  rcases h with h | ⟨h, -⟩
  · exact h
  · rw [h.prefetch] at hp
    cases hp

theorem Activity.prefetch_stays (h : Activity code s) (htrap : s.trap = false) (hp : s.memState = 3 → s.memDoPrefetch = true)
    (htrig : s.cpuState = .fetch → s.decoderTrigger = true → s.memState = 0) (hs : (s.step true i).memState = 3) :
    (s.step true i).memDoPrefetch = true := by
  obtain ⟨hr, hstate⟩ := memState_of_three htrap hs
  have hne : s.memState ≠ 0 := by rcases hstate with ⟨h1, -⟩ | h3 <;> simp [*]
  have hprefetch : s.memDoPrefetch = true := by
    rcases hstate with ⟨h1, hd⟩ | h3
    · have hasks := (h.reads h1).1
      rwa [hr, hd, Bool.or_false, Bool.or_false] at hasks
    · exact hp h3
  have hn := h.exclusive.noData hprefetch
  have hdone : s.memDone true i = false := by
    rw [memDone, hr, hn.rdata, hn.wdata]
    simp
  rw [memDoPrefetch_of toMain_step, hdone, fsm_memDoPrefetch fun hfetch => Bool.eq_false_iff.2 fun ht => hne (htrig hfetch ht)]
  exact hprefetch

/-! ## The request on the bus -/

/-- A request that is not answered stays. -/
theorem Activity.request_stays (h : Activity code s) (htrap : s.trap = false) (hv : s.memValid = true) (hr : i.memReady = false) :
    ∃ b, s.memFsm true i = { s.toMemFsm with prefetchedHighWord := b } := by
  have hall : ∀ x : BitVec 2, x = 0 ∨ x = 1 ∨ x = 2 ∨ x = 3 := by decide
  have hxfer (huse : s.memLaUsePrefetchedHighWord true = false) : s.memXfer true i = false := by
    rw [memXfer, hr, huse, Bool.and_false, Bool.false_and, Bool.or_self]
  rcases hall s.memState with h0 | h1 | h2 | h3
  · rw [h.rests (.inl h0)] at hv
    cases hv
  · have huse : s.memLaUsePrefetchedHighWord true = false := by
      have hvalid := (h.reads h1).2.1
      rw [hv] at hvalid
      simpa using hvalid.symm
    exact ⟨_, memFsm_wait htrap h1 (hxfer huse)⟩
  · have hne : s.memState ≠ 0 := by rw [h2]; decide
    have hn : NoFetch s := by
      rcases h.exclusive with hd | ⟨hn, -⟩
      · cases (h.writes h2).2.1.symm.trans hd.wdata
      · exact hn
    have hx := hxfer hn.usePrefetched
    refine ⟨s.kept s.prefetchedHighWord, ?_⟩
    rw [memFsm_writing htrap h2 (hx.trans hr.symm) (memLaRead_of_not_xfer hne hx), hr, ← h2]
    rfl
  · rw [h.rests (.inr h3)] at hv
    cases hv

theorem Phase.request_stays (h : Phase code a s) (hv : s.memValid = true) (hr : i.memReady = false) :
    (s.step true i).request = s.request := by
  change (s.memFsm true i).request = s.toMemFsm.request
  cases htrap : s.trap with
  | true =>
    rw [memFsm_trap htrap, hr]
    rfl
  | false =>
    obtain ⟨b, hb⟩ := (h.activity htrap).request_stays htrap hv hr
    rw [hb]
    rfl

/-! ## Runs -/

theorem Activity.asserted (h : Activity code s) (hc : Cleared s) (hp : s.memState = 3 → s.memDoPrefetch = true) : Asserted s where
  noWrite hreq := by
    rcases h.exclusive with hd | ⟨hn, hd | hw⟩
    · exact hd.wdata
    · simp [hn.prefetch, hn.rinst, hd] at hreq
    · exact hw
  noRead hreq := by
    rcases h.exclusive with hd | ⟨hn, -⟩
    · exact hd.rdata
    · simp [hn.prefetch, hn.rinst] at hreq
  noFetch hreq := by
    rcases h.exclusive with hd | ⟨hn, -⟩
    · rw [hd.rdata] at hreq
      cases hreq
    · exact ⟨hn.prefetch, hn.rinst⟩
  noOther hreq := by
    rcases h.exclusive with hd | ⟨hn, hd | hw⟩
    · rw [hd.wdata] at hreq
      cases hreq
    · rw [hn.prefetch, hn.rinst, hd]
      rfl
    · rw [hw] at hreq
      cases hreq
  busy hs := by
    rcases hs with h2 | h3
    · rw [(h.writes h2).2.2, Bool.true_or]
    · rw [hp h3, Bool.or_true]
  reads hs := ⟨hc (.inl hs), h.reads hs⟩
  writes hs := ⟨(h.writes hs).1, (h.writes hs).2.1⟩
  collects hs := ⟨hc (.inr hs), hp hs⟩

/-- With an instruction memory that answers with `code`, after a reset of two edges or more:
the assertions hold in every cycle until the core stops, and a request stays as it is until
it is answered, even then. -/
theorem interface_asserted (code : Word32 → Word32) (r : Run step) (hreset : ∃ s i, r.powerUp = step false s i)
    (hcode : ∀ n, Answers code (r.st n) (r.inp n)) :
    (∀ n, (r.st n).trap = false → Asserted (r.st n)) ∧ Held (fun n => (r.st n).request) fun n => (r.inp n).memReady := by
  obtain ⟨arch, -, hphase, -⟩ := runs_phases code r hreset hcode
  have hclear := r.invariant cleared_reset fun _ _ h => h.step
  have hprefetch (n : ℕ) : (r.st n).trap = false → (r.st n).memState = 3 → (r.st n).memDoPrefetch = true := by
    induction n with
    | zero =>
      intro _ hs
      rw [r.st_zero] at hs
      cases hs
    | succ n ih =>
      rw [r.st_succ]
      intro htrap hs
      have hrun : (r.st n).trap = false := Bool.eq_false_iff.2 fun ht => by
        rw [show ((r.st n).step true (r.inp n)).trap = true from congrArg Main.trap (main_trap ((hphase n).shows.trap ht))] at htrap
        cases htrap
      exact ((hphase n).activity hrun).prefetch_stays hrun (ih hrun) (hphase n).idle_of_trigger hs
  refine ⟨fun n htrap => ((hphase n).activity htrap).asserted (hclear n) (hprefetch n htrap), .of_edge fun n x hx hr => ?_⟩
  rw [r.st_succ, (hphase n).request_stays (offered_eq_some.1 hx).1 hr]
  exact hx

theorem stores_asserted : (∀ n, (storeRun.st n).trap = false → Asserted (storeRun.st n)) ∧
    Held (fun n => (storeRun.st n).request) fun n => (storeRun.inp n).memReady :=
  interface_asserted storeCode storeRun ⟨default, ⟨true, 0x00202023, 0, default⟩, rfl⟩ fun _ _ _ _ => rfl

end Core

end RiscvSoc.Cpu
