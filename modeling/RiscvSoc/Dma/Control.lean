import RiscvSoc.Aes.ChainRun
import RiscvSoc.Dma.Engine
/-!
# The handshakes of the DMA

Whatever the CPU writes and whatever the data is, each state of the engine fixes
the strobes it drives, where the memory's two state machines are and whether the
AES chain is at work.
-/

namespace RiscvSoc.Dma

open Sync Aes

variable {k : ℕ}

/-! ## The engine's strobes -/

/-- The strobes that go with each state, whatever the engine is connected to. -/
structure Strobes (f : DmaFsm) : Prop where
  busy : f.statusBusy = true ↔ f.state ≠ .idle
  irq : f.irqPulse = true → f.state = .idle
  arvalid : f.mArvalid = true → f.state = .rdAddr
  rready : f.mRready = true ↔ f.state = .rdData
  awvalid : f.mAwvalid = true → f.state = .wrAddr
  wvalid : f.mWvalid = true ↔ f.state = .wrData
  bready : f.mBready = true ↔ f.state = .wrResp
  loadIv : f.chainLoadIv = true → f.state = .rdAddr ∧ f.mArvalid = false
  start : f.chainStart = true ↔ f.state = .aesGo

theorem strobes_reset (e : DmaEngine) (i : EngineIn) : Strobes (e.fsmStep false i) := by
  constructor <;> simp [DmaEngine.fsmStep]

theorem strobes_step (e : DmaEngine) (i : EngineIn) (h : Strobes e.fsm) : Strobes (e.fsmStep true i) := by
  obtain ⟨busy, irq, arvalid, rready, awvalid, wvalid, bready, loadIv, start⟩ := h
  simp only [DmaEngine.fsmStep, DmaEngine.fsmCase]
  cases hs : e.fsm.state <;> simp only [hs, reduceCtorEq, imp_false, ne_eq, not_true, not_false_eq_true,
    iff_true, iff_false, Bool.not_eq_true, false_and] at busy arvalid rready awvalid wvalid bready loadIv start
  case idle => cases e.doStart i.cpu <;> constructor <;> simp [*]
  case rdAddr => cases e.fsm.mArvalid <;> cases i.ram.arready <;> constructor <;> simp [*]
  case rdData => cases i.ram.rvalid <;> cases i.ram.rlast <;> constructor <;> simp [*]
  case aesWait => cases e.uChain.doneReg <;> constructor <;> simp [*]
  case wrAddr => cases e.fsm.mAwvalid <;> cases i.ram.awready <;> constructor <;> simp [*]
  case wrData => cases i.ram.wready <;> by_cases h3 : e.fsm.beatCnt = 3#2 <;> constructor <;> simp [*]
  case wrResp => cases i.ram.bvalid <;> by_cases h1 : e.fsm.blocksLeft = 1#32 <;> constructor <;> simp [*]
  case aesGo | done => constructor <;> simp [*]

/-! ## Where the state machines go -/

section Next

variable (e : DmaEngine) (i : EngineIn) (s : DmaRam k) (b : BurstReq)

/-- The state after an edge. -/
theorem fsmStep_state : (e.fsmStep true i).state =
    match e.fsm.state with
    | .idle => if e.doStart i.cpu then .rdAddr else .idle
    | .rdAddr => if e.fsm.mArvalid && i.ram.arready then .rdData else .rdAddr
    | .rdData => if i.ram.rvalid && e.fsm.mRready && i.ram.rlast then .aesGo else .rdData
    | .aesGo => .aesWait
    | .aesWait => if e.uChain.doneReg then .wrAddr else .aesWait
    | .wrAddr => if e.fsm.mAwvalid && i.ram.awready then .wrData else .wrAddr
    | .wrData => if e.fsm.mWvalid && i.ram.wready && e.fsm.beatCnt = 3#2 then .wrResp else .wrData
    | .wrResp => if i.ram.bvalid then (if e.fsm.blocksLeft = 1#32 then .done else .rdAddr) else .wrResp
    | .done => .idle := by
  simp only [DmaEngine.fsmStep, DmaEngine.fsmCase]
  cases e.fsm.state with
  | idle => cases e.doStart i.cpu <;> simp
  | rdAddr => cases e.fsm.mArvalid <;> cases i.ram.arready <;> simp
  | rdData => cases i.ram.rvalid <;> cases e.fsm.mRready <;> cases i.ram.rlast <;> simp
  | aesWait => cases e.uChain.doneReg <;> simp
  | wrAddr => cases e.fsm.mAwvalid <;> cases i.ram.awready <;> simp
  | wrData => cases e.fsm.mWvalid <;> cases i.ram.wready <;> by_cases h3 : e.fsm.beatCnt = 3#2 <;> simp [h3]
  | wrResp => cases i.ram.bvalid <;> by_cases h1 : e.fsm.blocksLeft = 1#32 <;> simp [h1]
  | aesGo | done => simp

theorem next_rdData : (e.fsmStep true i).state = .rdData ↔
    (e.fsm.state = .rdAddr ∧ e.fsm.mArvalid = true ∧ i.ram.arready = true) ∨
      (e.fsm.state = .rdData ∧ ¬ (i.ram.rvalid = true ∧ e.fsm.mRready = true ∧ i.ram.rlast = true)) := by
  rw [fsmStep_state]
  cases e.fsm.state <;> simp [ite_eq_iff, and_assoc]

theorem next_aesWait : (e.fsmStep true i).state = .aesWait ↔
    e.fsm.state = .aesGo ∨ (e.fsm.state = .aesWait ∧ e.uChain.doneReg = false) := by
  rw [fsmStep_state]
  cases e.fsm.state <;> simp [ite_eq_iff, and_assoc]

theorem next_wrData : (e.fsmStep true i).state = .wrData ↔
    (e.fsm.state = .wrAddr ∧ e.fsm.mAwvalid = true ∧ i.ram.awready = true) ∨
      (e.fsm.state = .wrData ∧ ¬ (e.fsm.mWvalid = true ∧ i.ram.wready = true ∧ e.fsm.beatCnt = 3#2)) := by
  rw [fsmStep_state]
  cases e.fsm.state <;> simp [ite_eq_iff, and_assoc]

theorem next_wrResp : (e.fsmStep true i).state = .wrResp ↔
    (e.fsm.state = .wrData ∧ e.fsm.mWvalid = true ∧ i.ram.wready = true ∧ e.fsm.beatCnt = 3#2) ∨
      (e.fsm.state = .wrResp ∧ i.ram.bvalid = false) := by
  rw [fsmStep_state]
  cases e.fsm.state <;> simp [ite_eq_iff, and_assoc]

/-- The registers that the write path drives. -/
theorem writePath_frame : ∃ mem wState wWordIdx wBeatsLeft sBvalid sBresp,
    s.writePath b =
      { s with
        mem := mem, wState := wState, wWordIdx := wWordIdx, wBeatsLeft := wBeatsLeft, sBvalid := sBvalid
        sBresp := sBresp } := by
  rw [DmaRam.writePath]
  cases s.wState with
  | idle => cases b.awvalid <;> exact ⟨_, _, _, _, _, _, rfl⟩
  | burst => cases b.wvalid <;> cases b.wlast <;> exact ⟨_, _, _, _, _, _, rfl⟩

/-- The registers that the read path drives. -/
theorem readPath_frame (m : Mem k) : ∃ rState rWordIdx rBeatsLeft sRvalid sRdata sRresp sRlast,
    s.readPath m b =
      { s with
        rState := rState, rWordIdx := rWordIdx, rBeatsLeft := rBeatsLeft, sRvalid := sRvalid, sRdata := sRdata
        sRresp := sRresp, sRlast := sRlast } := by
  rw [DmaRam.readPath]
  cases s.rState with
  | idle => cases b.arvalid <;> exact ⟨_, _, _, _, _, _, _, rfl⟩
  | burst =>
    cases !s.sRvalid || b.rready with
    | false => exact ⟨_, _, _, _, _, _, _, rfl⟩
    | true =>
      by_cases h0 : s.rBeatsLeft = 0
      · simp only [h0, if_true]
        exact ⟨_, _, _, _, _, _, _, rfl⟩
      · simp only [h0, if_false, if_true]
        exact ⟨_, _, _, _, _, _, _, rfl⟩

/-- The two paths of the memory have registers of their own. -/
theorem writePath_read :
    let t := s.writePath b
    t.rState = s.rState ∧ t.rWordIdx = s.rWordIdx ∧ t.rBeatsLeft = s.rBeatsLeft ∧ t.sRvalid = s.sRvalid ∧
      t.sRdata = s.sRdata ∧ t.sRresp = s.sRresp ∧ t.sRlast = s.sRlast := by
  obtain ⟨_, _, _, _, _, _, h⟩ := writePath_frame s b
  rw [h]
  exact ⟨rfl, rfl, rfl, rfl, rfl, rfl, rfl⟩

theorem ram_read :
    let t := s.readPath s.mem b
    let s' := s.step true b
    s'.rState = t.rState ∧ s'.rWordIdx = t.rWordIdx ∧ s'.rBeatsLeft = t.rBeatsLeft ∧ s'.sRvalid = t.sRvalid ∧
      s'.sRdata = t.sRdata := by
  obtain ⟨_, _, _, _, _, _, h⟩ := writePath_frame s b
  simp only [DmaRam.step, Bool.not_true, Bool.false_eq_true, if_false, h, DmaRam.readPath]
  cases hs : s.rState with
  | idle => cases b.arvalid <;> exact ⟨rfl, rfl, rfl, rfl, rfl⟩
  | burst =>
    cases !s.sRvalid || b.rready with
    | false => simp [hs]
    | true => by_cases h0 : s.rBeatsLeft = 0#8 <;> simp [h0]

theorem ram_write :
    let t := s.writePath b
    let s' := s.step true b
    s'.mem = t.mem ∧ s'.wState = t.wState ∧ s'.wWordIdx = t.wWordIdx ∧ s'.sBvalid = t.sBvalid := by
  obtain ⟨_, _, _, _, _, _, _, h⟩ := readPath_frame (s.writePath b) b s.mem
  simp [DmaRam.step, h]

theorem ram_wState : (s.step true b).wState = .burst ↔
    (s.wState = .idle ∧ b.awvalid = true) ∨ (s.wState = .burst ∧ ¬ (b.wvalid = true ∧ b.wlast = true)) := by
  rw [(ram_write s b).2.1, DmaRam.writePath]
  cases s.wState with
  | idle => cases b.awvalid <;> simp
  | burst => cases b.wvalid <;> cases b.wlast <;> simp

theorem ram_sBvalid : (s.step true b).sBvalid = true ↔
    if s.wState = .burst ∧ b.wvalid = true ∧ b.wlast = true then ¬ (s.sBvalid = true ∧ b.bready = true)
    else s.sBvalid = true ∧ b.bready = false := by
  rw [(ram_write s b).2.2.2, DmaRam.writePath]
  cases s.wState with
  | idle => cases b.awvalid <;> simp
  | burst => cases b.wvalid <;> cases b.wlast <;> cases s.sBvalid <;> simp

theorem ram_rState : (s.step true b).rState = .burst ↔
    (s.rState = .idle ∧ b.arvalid = true) ∨
      (s.rState = .burst ∧ ¬ ((s.sRvalid = false ∨ b.rready = true) ∧ s.rBeatsLeft = 0#8)) := by
  rw [(ram_read s b).1, DmaRam.readPath]
  cases hs : s.rState with
  | idle => cases b.arvalid <;> simp
  | burst => cases s.sRvalid <;> cases b.rready <;> by_cases h0 : s.rBeatsLeft = 0#8 <;> simp [hs, h0]

theorem ram_sRvalid : (s.step true b).sRvalid = true ↔ s.rState = .burst := by
  rw [(ram_read s b).2.2.2.1, DmaRam.readPath]
  cases s.rState with
  | idle => cases b.arvalid <;> simp
  | burst => cases hv : s.sRvalid <;> cases b.rready <;> by_cases h0 : s.rBeatsLeft = 0#8 <;> simp [hv, h0]

theorem ram_sRlast (hs : s.rState = .burst) (hr : s.sRvalid = false ∨ b.rready = true) :
    (s.step true b).sRlast = true ↔ s.rBeatsLeft = 0#8 := by
  obtain ⟨_, _, _, _, _, _, h⟩ := writePath_frame s b
  have hready : (!s.sRvalid || b.rready) = true := by simpa using hr
  simp only [DmaRam.step, Bool.not_true, Bool.false_eq_true, if_false, h, DmaRam.readPath, hs, hready, if_true]
  by_cases h0 : s.rBeatsLeft = 0#8 <;> simp [h0]

theorem chain_core : (e.step true i).uChain.state = .core ↔
    (e.uChain.state = .idle ∧ e.fsm.chainStart = true) ∨
      (e.uChain.state = .core ∧ e.uChain.uCore.done = false) := by
  have h := e.uChain.fsm_state e.chainIn
  have hst : (e.step true i).uChain.state = (e.uChain.fsm e.chainIn).state := rfl
  rw [hst]
  cases hc : e.uChain.state <;> cases hf : (e.uChain.fsm e.chainIn).state <;>
    simp_all [DmaEngine.chainIn]

theorem chain_doneReg : (e.step true i).uChain.doneReg = true ↔
    e.uChain.state = .core ∧ e.uChain.uCore.done = true :=
  e.uChain.doneReg_step e.chainIn

end Next

/-! ## The engine -/

/-- What every reachable state of the engine satisfies, whatever answers its bursts. -/
structure EngineCtl (e : DmaEngine) : Prop where
  strobes : Strobes e.fsm
  sync : e.uChain.Synced
  chain : e.uChain.state = .core → e.fsm.state = .aesWait ∧ e.uChain.doneReg = false
  answer : e.fsm.state = .aesWait → e.uChain.state = .idle → e.uChain.doneReg = true

theorem engineCtl_reset (e : DmaEngine) (i : EngineIn) : EngineCtl (e.step false i) := by
  refine ⟨strobes_reset e i, AesChain.synced_reset _ _, ?_, ?_⟩ <;>
    simp [DmaEngine.step, DmaEngine.fsmStep, AesChain.step]

theorem engineCtl_step (e : DmaEngine) (i : EngineIn) (h : EngineCtl e) : EngineCtl (e.step true i) := by
  have hst := h.strobes
  have hf : (e.step true i).fsm = e.fsmStep true i := rfl
  have hcc := chain_core e i
  have hcd := chain_doneReg e i
  refine ⟨strobes_step e i hst, AesChain.synced_step _ _ h.sync, ?_, ?_⟩
  · rw [hf, next_aesWait, hcc]
    rintro (⟨h1, h2⟩ | ⟨h1, h2⟩)
    · exact ⟨.inl (hst.start.1 h2), by rw [← Bool.not_eq_true, hcd]; simp [h1]⟩
    · exact ⟨.inr (h.chain h1), by rw [← Bool.not_eq_true, hcd]; simp [h2]⟩
  · rw [hf, next_aesWait, hcd]
    intro h1 h2
    have h3 : (e.step true i).uChain.state ≠ .core := by simp [h2]
    rw [Ne, hcc] at h3
    have := h.answer
    have := hst.start
    cases hc : e.uChain.state <;> simp_all

/-- Outside `aesWait` the chain is idle. -/
theorem EngineCtl.chain_idle {e : DmaEngine} (h : EngineCtl e) (hs : e.fsm.state ≠ .aesWait) :
    e.uChain.state = .idle := by
  cases hc : e.uChain.state with
  | idle => rfl
  | core => exact absurd (h.chain hc).1 hs

/-! ## The whole system -/

/-- What every reachable state satisfies. -/
structure Ctl (s : DmaSys k) : Prop where
  strobes : Strobes s.engine.fsm
  sync : s.engine.uChain.Synced
  chain : s.engine.uChain.state = .core → s.engine.fsm.state = .aesWait ∧ s.engine.uChain.doneReg = false
  answer : s.engine.fsm.state = .aesWait → s.engine.uChain.state = .idle → s.engine.uChain.doneReg = true
  write : s.ram.wState = .burst ↔ s.engine.fsm.state = .wrData
  bvalid : s.ram.sBvalid = true ↔ s.engine.fsm.state = .wrResp
  read : s.ram.rState = .burst → s.engine.fsm.state = .rdData
  last : s.engine.fsm.state = .rdData → s.ram.rState = .idle → s.ram.sRvalid = true ∧ s.ram.sRlast = true
  more : s.ram.rState = .burst → s.ram.sRvalid = true → s.ram.sRlast = false

theorem Ctl.engine {s : DmaSys k} (h : Ctl s) : EngineCtl s.engine := ⟨h.strobes, h.sync, h.chain, h.answer⟩

theorem ctl_reset (s : DmaSys k) (i : DmaIn) : Ctl (s.step false i) := by
  obtain ⟨strobes, sync, chain, answer⟩ := engineCtl_reset s.engine ⟨i.cpu, s.ram.rsp, i.doneWins⟩
  refine ⟨strobes, sync, chain, answer, ?_, ?_, ?_, ?_, ?_⟩ <;>
    simp [DmaSys.step, DmaEngine.step, DmaEngine.fsmStep, DmaRam.step]

theorem ctl_step (s : DmaSys k) (i : DmaIn) (h : Ctl s) : Ctl (s.step true i) := by
  let ei : EngineIn := ⟨i.cpu, s.ram.rsp, i.doneWins⟩
  let b := DmaEngine.burst s.engine.fsm
  have hst := h.strobes
  have hf : (s.step true i).engine.fsm = s.engine.fsmStep true ei := rfl
  have hram : (s.step true i).ram = s.ram.step true b := rfl
  obtain ⟨strobes, sync, chain, answer⟩ := engineCtl_step s.engine ei h.engine
  refine ⟨strobes, sync, chain, answer, ?_, ?_, ?_, ?_, ?_⟩
  · rw [hf, hram, ram_wState, next_wrData]
    have := h.write
    have := hst.awvalid
    simp only [b, ei, DmaEngine.burst, DmaRam.rsp, decide_eq_true_eq]
    grind
  · rw [hf, hram, ram_sBvalid, next_wrResp]
    have := h.write
    have := h.bvalid
    have := hst.bready
    simp only [b, ei, DmaEngine.burst, DmaRam.rsp, decide_eq_true_eq]
    grind
  · rw [hf, hram, ram_rState, next_rdData]
    have := h.read
    have := h.more
    have := hst.arvalid
    simp only [b, ei, DmaEngine.burst, DmaRam.rsp, decide_eq_true_eq]
    grind
  · rw [hf, hram, next_rdData]
    intro hs hr
    have hb : ¬ (s.ram.step true b).rState = .burst := by simp [hr]
    rw [ram_rState, not_or] at hb
    cases hrs : s.ram.rState with
    | idle =>
      rcases hs with ⟨-, hav, -⟩ | ⟨hs, hn⟩
      · exact absurd ⟨hrs, hav⟩ hb.1
      · obtain ⟨hv, hl⟩ := h.last hs hrs
        exact absurd ⟨hv, hst.rready.2 hs, hl⟩ hn
    | burst =>
      obtain ⟨hready, h0⟩ := not_not.1 (fun hn => hb.2 ⟨hrs, hn⟩)
      exact ⟨(ram_sRvalid _ _).2 hrs, (ram_sRlast _ _ hrs hready).2 h0⟩
  · rw [hram, ram_rState, ram_sRvalid]
    intro hr hb
    -- the engine is in `rdData`, so the beat is taken
    have hready : s.ram.sRvalid = false ∨ b.rready = true := .inr (hst.rready.2 (h.read hb))
    rw [← Bool.not_eq_true, ram_sRlast s.ram b hb hready]
    grind

theorem ctl (r : Run (DmaSys.step (k := k))) (n : ℕ) : Ctl (r.st n) := r.invariant ctl_reset ctl_step n

end RiscvSoc.Dma
