import RiscvSoc.Dma.Stages
/-!
# A DMA operation from START to the fall of BUSY

The 38 cycles of a block in order, the blocks in order, and what the CPU finds
in the end.
-/

namespace RiscvSoc.Dma

open Sync Aes Modes

variable {k : ℕ}

/-- `n` cycles into block `i`, which found memory `m` and chaining value `v`. -/
inductive BlockStage (j : DmaJob) (i : ℕ) (m : Mem k) (v : Block) : ℕ → DmaSys k → Prop
  | rdAddr {s} (h : RdAddr j i m v false s) : BlockStage j i m v 0 s
  | rdAddrOut {s} (h : RdAddr j i m v true s) : BlockStage j i m v 1 s
  | rdData {n s} (hn : n ≤ 4) (h : RdData j i m v n s) : BlockStage j i m v (2 + n) s
  | aesGo {s} (h : AesGo j i m v (readBlock m (blockWord k j.src i)) s) : BlockStage j i m v 7 s
  | aesWait {n s} (hn : n ≤ 21) (h : AesWait j i m v (readBlock m (blockWord k j.src i)) n s) :
      BlockStage j i m v (8 + n) s
  | aesDone {s} (h : AesDone j i m v (readBlock m (blockWord k j.src i)) s) : BlockStage j i m v 30 s
  | wrAddr {a s} (h : WrAddr j i m (j.nextIv m i v) (j.out m i v) a s) : BlockStage j i m v (31 + a.toNat) s
  | wrData {n s} (hn : n ≤ 3) (h : WrData j i m (j.nextIv m i v) (j.out m i v) n s) : BlockStage j i m v (33 + n) s
  | wrResp {s} (h : At .wrResp j i (writeBlock m (blockWord k j.dst i) (j.out m i v)) (j.nextIv m i v) s) :
      BlockStage j i m v 37 s

section Edge

variable {j : DmaJob} {i : ℕ} {m : Mem k} {v : Block} {n : ℕ} {s : DmaSys k} {x : DmaIn}

theorem blockStage_step (hk : k ≤ 30) (hc : Ctl s) (hw : DmaEngine.doWrite x.cpu = false) (hn : n < 37)
    (h : BlockStage j i m v n s) : BlockStage j i m v (n + 1) (s.step true x) := by
  cases h with
  | rdAddr h => exact .rdAddrOut (rdAddr_out hc hw h)
  | rdAddrOut h => exact .rdData (n := 0) (by omega) (rdData_start hc hw hk h)
  | @rdData p _ hp h =>
    rcases Nat.lt_or_eq_of_le hp with hlt | rfl
    · exact .rdData (n := p + 1) hlt (rdData_step hc hw (by omega) h)
    · exact .aesGo (aesGo_start hc hw h)
  | aesGo h => exact .aesWait (n := 0) (by omega) (aesWait_start hc hw h)
  | @aesWait p _ hp h =>
    rcases Nat.lt_or_eq_of_le hp with hlt | rfl
    · exact .aesWait (n := p + 1) hlt (aesWait_step hc hw hlt h)
    · exact .aesDone (aesDone_start hc hw h)
  | aesDone h => exact .wrAddr (a := false) (wrAddr_start hc hw h)
  | @wrAddr a _ h =>
    cases a with
    | false => exact .wrAddr (a := true) (wrAddr_out hc hw h)
    | true => exact .wrData (n := 0) (by omega) (wrData_start hc hw hk h)
  | @wrData p _ hp h =>
    rcases Nat.lt_or_eq_of_le hp with hlt | rfl
    · exact .wrData (n := p + 1) hlt (wrData_step hc hw (by omega) h)
    · exact .wrResp (wrResp_start hc hw h)
  | wrResp h => omega

theorem BlockStage.working (h : BlockStage j i m v n s) : s.engine.fsm.state ≠ .idle ∧ s.engine.fsm.state ≠ .done := by
  cases h with
  | rdAddr h | rdAddrOut h | rdData _ h | aesGo h | aesWait _ h | wrAddr h | wrData _ h | wrResp h => simp [h.state]
  | aesDone h => simp [h.at_wait.state]

theorem BlockStage.resp (h : BlockStage j i m v n s) (hn : n = 37) :
    At .wrResp j i (writeBlock m (blockWord k j.dst i) (j.out m i v)) (j.nextIv m i v) s := by
  cases h with
  | wrResp h => exact h
  | @wrAddr a => have := a.toNat_le; omega
  | rdAddr | rdAddrOut | rdData | aesGo | aesWait | aesDone | wrData => omega

end Edge

/-! ## Runs -/

/-- The operation an accepted START asks for. -/
def DmaEngine.job (e : DmaEngine) (i : LiteReq) : DmaJob where
  src := e.regs.srcAddrReg
  dst := e.regs.dstAddrReg
  len := e.regs.lenReg
  key := e.regs.keyReg
  iv := e.regs.ivReg
  mode := i.wdata.extractLsb' 2 2
  dec := i.wdata.getLsbD 1

theorem start_fsm {e : DmaEngine} {i : EngineIn} (hc : EngineCtl e) (h : e.doStart i.cpu = true) :
    e.fsm.state = .idle ∧ e.fsm.mArvalid = false ∧
      (e.step true i).fsm =
        { e.fsm with
          irqPulse := false, chainStart := false, curSrc := e.regs.srcAddrReg, curDst := e.regs.dstAddrReg
          blocksLeft := e.regs.lenReg, statusBusy := true, chainLoadIv := true, state := .rdAddr } := by
  have hbusy : e.fsm.statusBusy = false := by
    simp only [DmaEngine.doStart, Bool.and_eq_true, Bool.not_eq_true'] at h
    exact h.2
  have hs : e.fsm.state = .idle := by
    by_contra hne
    simpa [hbusy] using hc.strobes.busy.2 hne
  have hav : e.fsm.mArvalid = false := by
    cases hav : e.fsm.mArvalid with
    | false => rfl
    | true => simpa [hs] using hc.strobes.arvalid hav
  refine ⟨hs, hav, ?_⟩
  simp [DmaEngine.step, DmaEngine.fsmStep, DmaEngine.fsmCase, hs, h]

/-- START is a write to CTRL and touches no other register. -/
theorem start_regs {e : DmaEngine} {i : EngineIn} (h : e.doStart i.cpu = true) :
    let g := (e.step true i).regs
    g.keyReg = e.regs.keyReg ∧ g.ivReg = e.regs.ivReg ∧ g.ctrlMode = i.cpu.wdata.extractLsb' 2 2 ∧
      g.ctrlEncdec = i.cpu.wdata.getLsbD 1 := by
  obtain ⟨⟨⟨hw, hoff⟩, -⟩, -⟩ : ((DmaEngine.doWrite i.cpu = true ∧ DmaEngine.awOffset i.cpu = regCtrl) ∧
      i.cpu.wdata.getLsbD 0 = true) ∧ e.fsm.statusBusy = false := by
    simpa only [DmaEngine.doStart, Bool.and_eq_true, decide_eq_true_eq, Bool.not_eq_true'] using h
  have hwr (g : DmaRegs) (d : Word32) : DmaEngine.writeReg g regCtrl d = g := rfl
  cases ha : i.cpu.arvalid <;> simp [DmaEngine.step, DmaEngine.regsStep, h, hw, hoff, hwr, ha]

theorem start_step {s : DmaSys k} {x : DmaIn} (hc : Ctl s) (h : s.engine.doStart x.cpu = true) :
    RdAddr (s.engine.job x.cpu) 0 s.ram.mem s.engine.regs.ivReg false (s.step true x) := by
  obtain ⟨hs, hav, hf⟩ := start_fsm (i := ⟨x.cpu, s.ram.rsp, x.doneWins⟩) hc.engine h
  obtain ⟨r1, r2, r3, r4⟩ := start_regs (i := ⟨x.cpu, s.ram.rsp, x.doneWins⟩) h
  replace hf : (s.step true x).engine.fsm = _ := hf
  exact {
    frame := {
      curSrc := by simp [hf, DmaEngine.job]
      curDst := by simp [hf, DmaEngine.job]
      blocksLeft := by simp [hf, DmaEngine.job]
      keyReg := r1
      ivReg := r2
      ctrlMode := r3
      ctrlEncdec := r4 }
    state := by rw [hf]
    mem := mem_quiet x (hc.write_idle (by simp [hs]))
    iv := by rw [chainIv, hf]; exact r2
    arvalid := by rw [hf]; exact hav
    araddr := by simp }

/-- `irq` is the pulse of the edge that leaves state `done`. -/
theorem irq_step (s : DmaSys k) (x : DmaIn) : (s.step true x).irq = true ↔ s.engine.fsm.state = .done := by
  simp only [DmaSys.irq, DmaSys.step, DmaEngine.step, DmaEngine.fsmStep, DmaEngine.fsmCase]
  cases s.engine.fsm.state <;> simp <;> grind

section Runs

variable {r : Run (DmaSys.step (k := k))} {t : ℕ}

/-- BUSY reads 1 in the cycles `t + 1 .. n`. -/
def BusyTo (r : Run (DmaSys.step (k := k))) (t n : ℕ) : Prop :=
  ∀ m, t < m → m ≤ n → (r.st m).engine.fsm.statusBusy = true

/-- No register is written while the operation started in cycle `t` is BUSY. -/
def NoWrite (r : Run (DmaSys.step (k := k))) (t : ℕ) : Prop :=
  ∀ n, t < n → BusyTo r t n → DmaEngine.doWrite (r.inp n).cpu = false

theorem BusyTo.succ {n : ℕ} (h : BusyTo r t n) (hs : (r.st (n + 1)).engine.fsm.state ≠ .idle) :
    BusyTo r t (n + 1) := by
  intro m h1 h2
  rcases Nat.lt_or_eq_of_le h2 with hlt | rfl
  · exact h m h1 (by omega)
  · exact (ctl r _).strobes.busy.2 hs

variable {j : DmaJob} {i : ℕ} {m : Mem k} {v : Block}

theorem block_run (hk : k ≤ 30) (hq : NoWrite r t) {c : ℕ} (hc : t < c) (hb : BusyTo r t c)
    (h : RdAddr j i m v false (r.st c)) {n : ℕ} (hn : n ≤ 37) :
    BlockStage j i m v n (r.st (c + n)) ∧ BusyTo r t (c + n) := by
  induction n with
  | zero => exact ⟨.rdAddr h, hb⟩
  | succ n ih =>
    obtain ⟨hst, hbn⟩ := ih (by omega)
    have hnext : BlockStage j i m v (n + 1) (r.st (c + n + 1)) :=
      blockStage_step hk (ctl r _) (hq _ (by omega) hbn) (by omega) hst
    exact ⟨hnext, hbn.succ hnext.working.1⟩

/-- The blocks before block `i` are done `38 * i` cycles after the first began. -/
theorem blocks_run (hk : k ≤ 30) (hq : NoWrite r t) (h : RdAddr j 0 m j.iv false (r.st (t + 1)))
    (hi : i < j.len.toNat) :
    RdAddr j i (j.after m i).1 (j.after m i).2 false (r.st (t + 1 + 38 * i)) ∧ BusyTo r t (t + 1 + 38 * i) := by
  induction i with
  | zero =>
    refine ⟨h, fun n h1 h2 => ?_⟩
    obtain rfl : n = t + 1 := by omega
    exact (ctl r _).strobes.busy.2 (by simp [h.state])
  | succ i ih =>
    obtain ⟨hat, hb⟩ := ih (by omega)
    obtain ⟨hst, hbn⟩ := block_run hk hq (by omega) hb hat le_rfl
    have hw := hq _ (by omega) hbn
    have hnext := nextBlock (ctl r _) hw hi (hst.resp rfl)
    rw [show t + 1 + 38 * (i + 1) = t + 1 + 38 * i + 37 + 1 by omega]
    exact ⟨hnext, hbn.succ (by rw [Run.st_succ]; simp [hnext.state])⟩

/-- State `done` is reached `38 * LEN + 1` cycles after START, with the memory the job asks for. -/
theorem op_done (hk : k ≤ 30) (hstart : (r.st t).engine.doStart (r.inp t).cpu = true)
    (hlen : 1 ≤ (r.st t).engine.regs.lenReg.toNat) (hq : NoWrite r t) :
    let len := (r.st t).engine.regs.lenReg.toNat
    BusyTo r t (t + 1 + 38 * len) ∧ (r.st (t + 1 + 38 * len)).engine.fsm.state = .done ∧
      (r.st (t + 1 + 38 * len)).ram.mem = (((r.st t).engine.job (r.inp t).cpu).after (r.st t).ram.mem len).1 := by
  intro len
  have hfirst := start_step (ctl r t) hstart
  obtain ⟨n, hn⟩ : ∃ n, len = n + 1 := ⟨len - 1, by omega⟩
  obtain ⟨hat, hb⟩ := blocks_run hk hq hfirst (i := n) (show n < len by omega)
  obtain ⟨hst, hbn⟩ := block_run hk hq (by omega) hb hat le_rfl
  obtain ⟨hdone, hmem⟩ : (r.st (t + 1 + 38 * n + 37 + 1)).engine.fsm.state = .done ∧ _ :=
    lastBlock (x := r.inp _) (ctl r _) (show n + 1 = len by omega) (hst.resp rfl)
  rw [show len = n + 1 from hn, show t + 1 + 38 * (n + 1) = t + 1 + 38 * n + 37 + 1 by omega]
  exact ⟨hbn.succ (by simp [hdone]), hdone, hmem⟩

end Runs

/-- If no register is written while BUSY, an operation of `LEN ≥ 1` blocks ends:
BUSY falls after `38 * LEN + 1` cycles, the memory is then the fold of the mode over
the blocks, DONE reads 1, and `irq` is high in that cycle and in no other since START. -/
theorem dma_computes_fold (hk : k ≤ 30) (r : Run (DmaSys.step (k := k))) (t : ℕ)
    (hstart : (r.st t).engine.doStart (r.inp t).cpu = true) (hlen : 1 ≤ (r.st t).engine.regs.lenReg.toNat)
    (hq : NoWrite r t) :
    let len := (r.st t).engine.regs.lenReg.toNat
    let fin := t + 1 + 38 * len + 1
    (∀ n, t < n → n < fin → (r.st n).engine.fsm.statusBusy = true ∧ (r.st n).irq = false) ∧
      (r.st fin).engine.fsm.statusBusy = false ∧
      (r.st fin).ram.mem = (((r.st t).engine.job (r.inp t).cpu).after (r.st t).ram.mem len).1 ∧
      (r.st fin).engine.regs.statusDone = true ∧ (r.st fin).irq = true ∧ (r.st (fin + 1)).irq = false := by
  intro len fin
  obtain ⟨hb, hdone, hmem⟩ := op_done hk hstart hlen hq
  -- the edge at which BUSY falls
  obtain ⟨h1, h2, h3, h4, h5⟩ := done_step (ctl r _) (hq _ (by omega) hb) hdone
  refine ⟨fun m hm1 hm2 => ?_, h1, h4.trans hmem, h3, h2, ?_⟩
  · have hbm := hb m hm1 (by omega)
    refine ⟨hbm, Bool.not_eq_true _ ▸ fun hirq => ?_⟩
    exact (ctl r m).strobes.busy.1 hbm ((ctl r m).strobes.irq hirq)
  · have h5' : (r.st fin).engine.fsm.state = .idle := h5
    rw [← Bool.not_eq_true, Run.st_succ, irq_step, h5']
    simp

/-! ## One block of the FIPS-197 example -/

def idleReq : LiteReq := ⟨false, 0, false, 0, 0, false, false, 0, false⟩

def writeReq (addr data : Word32) : LiteReq :=
  { idleReq with awvalid := true, awaddr := addr, wvalid := true, wdata := data, wstrb := 0xF }

/-- DST_ADDR, LEN and the key, then START in cycle 6; the block is at address 0. -/
def fipsSetup : List LiteReq :=
  [writeReq 0x0C 0x100, writeReq 0x10 1, writeReq 0x14 0x00010203, writeReq 0x18 0x04050607,
    writeReq 0x1C 0x08090a0b, writeReq 0x20 0x0c0d0e0f, writeReq 0x00 1]

def fipsMem : Mem 11 := fun a =>
  if a = 0 then 0x00112233 else if a = 1 then 0x44556677 else if a = 2 then 0x8899aabb
  else if a = 3 then 0xccddeeff else 0

def dmaRun : Run (DmaSys.step (k := 11)) where
  powerUp := {
    engine := {
      fsm := ⟨.wrData, true, true, true, true, 1, 2, 3, 0, 4, 5, true, 6, 7, 0, 0, true, true, true, 8, 9, 0, 0, true⟩
      regs := ⟨1, 2, 3, 4, 5, true, 2, true, true, 0, true, 0, 0⟩
      uChain := ⟨.core, 3, true, 1, 2, 3, true,
        ⟨.round, true, 3, 0, true, true, 0, ⟨.expand, 7, true, fun _ => 0⟩⟩⟩ }
    ram := ⟨fipsMem, .burst, 5, 3, true, 0, .burst, 7, 9, true, 0, 0, true⟩ }
  resetInp := ⟨idleReq, false⟩
  inp n := ⟨fipsSetup.getD n idleReq, false⟩

/-! ## Two blocks of the CBC example of SP 800-38A -/

/-- DST_ADDR, LEN, the key and the IV, then START in CBC mode in cycle 10; the blocks are
at address 0, and the second goes back there. -/
def cbcSetup : List LiteReq :=
  [writeReq 0x0C 0x1FF0, writeReq 0x10 2, writeReq 0x14 0x2b7e1516, writeReq 0x18 0x28aed2a6, writeReq 0x1C 0xabf71588,
    writeReq 0x20 0x09cf4f3c, writeReq 0x24 0x00010203, writeReq 0x28 0x04050607, writeReq 0x2C 0x08090a0b,
    writeReq 0x30 0x0c0d0e0f, writeReq 0x00 5]

def cbcMem : Mem 11 := fun a =>
  [0x6bc1bee2, 0x2e409f96, 0xe93d7e11, 0x7393172a, 0xae2d8a57, 0x1e03ac9c, 0x9eb76fac, 0x45af8e51].getD a.toNat 0

def cbcDmaRun : Run (DmaSys.step (k := 11)) where
  powerUp := { dmaRun.powerUp with ram := { dmaRun.powerUp.ram with mem := cbcMem } }
  resetInp := dmaRun.resetInp
  inp n := ⟨cbcSetup.getD n idleReq, false⟩

theorem cbcDmaRun_noWrite : NoWrite cbcDmaRun 10 := by
  intro n hn _
  have : cbcSetup[n]? = none := List.getElem?_eq_none (by simp [cbcSetup]; omega)
  simp [cbcDmaRun, DmaEngine.doWrite, this, idleReq]

set_option maxRecDepth 100000 in
theorem dma_computes_fold_cbcDmaRun :
    (cbcDmaRun.st 88).engine.fsm.statusBusy = false ∧ (cbcDmaRun.st 88).irq = true ∧
      readBlock (cbcDmaRun.st 88).ram.mem (blockWord 11 0x1FF0 0) = 0x7649abac8119b246cee98e9b12e9197d#128 ∧
      readBlock (cbcDmaRun.st 88).ram.mem (blockWord 11 0 0) = 0x5086cb9b507219ee95db113a917678b2#128 := by
  obtain ⟨-, hbusy, hmem, -, hirq, -⟩ :=
    dma_computes_fold (by decide) cbcDmaRun 10 (by decide +kernel) (by decide +kernel) cbcDmaRun_noWrite
  refine ⟨hbusy, hirq, ?_⟩
  have : (cbcDmaRun.st 88).ram.mem = _ := hmem
  rw [this]
  decide +kernel

end RiscvSoc.Dma
