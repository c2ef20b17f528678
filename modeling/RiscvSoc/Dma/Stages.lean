import RiscvSoc.Dma.Control
import RiscvSoc.Lib.Counters
/-!
# What a DMA operation means, and the stages of a block

`after` says what an operation means for the memory: block by block, in order,
on the current memory, so ranges may overlap. The stages of a block are where the
engine, the chain and the memory are; each has a lemma for its clock edge.
-/

namespace RiscvSoc.Dma

open Sync Aes Modes

variable {k : ℕ}

/-! ## What an operation means -/

/-- The registers an accepted START latches. -/
structure DmaJob where
  src : Word32
  dst : Word32
  len : Word32
  key : Block
  iv : Block
  mode : BitVec 2
  dec : Bool

/-- Word `j` of block `i` from byte address `addr`, modulo the size of the memory. -/
def blockWord (k : ℕ) (addr : Word32) (i j : ℕ) : BitVec k := BitVec.ofNat k (addr.toNat / 4 + 4 * i + j)

/-- The block whose first and most significant word is at `a 0`. -/
def readBlock (m : Mem k) (a : ℕ → BitVec k) : Block := m (a 0) ++ m (a 1) ++ m (a 2) ++ m (a 3)

/-- The memory after the first `n` words of `b` are written to `a 0, a 1, ..`. -/
def writeWords (m : Mem k) (a : ℕ → BitVec k) (b : Block) : ℕ → Mem k
  | 0 => m
  | n + 1 => Function.update (writeWords m a b n) (a n) (b.extractLsb' (96 - 32 * n) 32)

def writeBlock (m : Mem k) (a : ℕ → BitVec k) (b : Block) : Mem k := writeWords m a b 4

namespace DmaJob

variable (j : DmaJob)

/-- What block `i` of memory `m` turns into under chaining value `v`. -/
def out (m : Mem k) (i : ℕ) (v : Block) : Block :=
  blockOut (aes j.key) (chainMode j.mode) j.dec v (readBlock m (blockWord k j.src i))

def nextIv (m : Mem k) (i : ℕ) (v : Block) : Block :=
  blockNext (aes j.key) (chainMode j.mode) j.dec v (readBlock m (blockWord k j.src i))

/-- The memory and the chaining value after `i` blocks. -/
def after (m : Mem k) : ℕ → Mem k × Block
  | 0 => (m, j.iv)
  | i + 1 =>
    let (m, v) := after m i
    (writeBlock m (blockWord k j.dst i) (j.out m i v), j.nextIv m i v)

end DmaJob

/-! ## Word addresses -/

theorem blockWord_succ (addr : Word32) (i n : ℕ) : blockWord k addr i (n + 1) = blockWord k addr i n + 1#k := by
  rw [blockWord, ← Nat.add_assoc, BitVec.ofNat_add]
  rfl

/-- The engine steps its byte address by 16; wrapping at `2^32` is no matter to the memory. -/
theorem wordIdx_block (hk : k ≤ 30) (addr : Word32) (i : ℕ) :
    DmaRam.wordIdx k (addr + BitVec.ofNat 32 (16 * i)) = blockWord k addr i 0 := by
  apply BitVec.eq_of_toNat_eq
  have hd : 2 ^ k ∣ 2 ^ 30 := Nat.pow_dvd_pow 2 hk
  have h4 : (addr.toNat + 16 * i) % 2 ^ 32 / 4 = (addr.toNat + 16 * i) / 4 % 2 ^ 30 :=
    Nat.mod_mul_right_div_self _ 4 (2 ^ 30)
  have hsum : (addr.toNat + 16 * i) / 4 = addr.toNat / 4 + 4 * i := by omega
  simp only [DmaRam.wordIdx, BitVec.extractLsb'_toNat, BitVec.toNat_add, BitVec.toNat_ofNat, blockWord,
    Nat.add_mod_mod, Nat.shiftRight_eq_div_pow, Nat.reducePow]
  rw [show (4294967296 : ℕ) = 2 ^ 32 from rfl, h4, hsum, Nat.mod_mod_of_dvd _ hd, Nat.add_zero]

/-! ## What a step keeps -/

/-- What the whole of block `i` has in common. -/
structure Frame (j : DmaJob) (i : ℕ) (s : DmaSys k) : Prop where
  curSrc : s.engine.fsm.curSrc = j.src + BitVec.ofNat 32 (16 * i)
  curDst : s.engine.fsm.curDst = j.dst + BitVec.ofNat 32 (16 * i)
  blocksLeft : s.engine.fsm.blocksLeft.toNat + i = j.len.toNat
  keyReg : s.engine.regs.keyReg = j.key
  ivReg : s.engine.regs.ivReg = j.iv
  ctrlMode : s.engine.regs.ctrlMode = j.mode
  ctrlEncdec : s.engine.regs.ctrlEncdec = j.dec

/-- The chaining value the next block starts from. -/
def chainIv (s : DmaSys k) : Block :=
  if s.engine.fsm.chainLoadIv then s.engine.regs.ivReg else s.engine.uChain.ivReg

/-- In state `st` of block `i`, with memory `m` and chaining value `v`. -/
structure At (st : EngineState) (j : DmaJob) (i : ℕ) (m : Mem k) (v : Block) (s : DmaSys k) : Prop where
  frame : Frame j i s
  state : s.engine.fsm.state = st
  mem : s.ram.mem = m
  iv : chainIv s = v

section Step

variable {s : DmaSys k} (x : DmaIn)

theorem regs_quiet (e : DmaEngine) (i : EngineIn) (hw : DmaEngine.doWrite i.cpu = false) :
    let g := e.regsStep true i
    g.keyReg = e.regs.keyReg ∧ g.ivReg = e.regs.ivReg ∧ g.ctrlMode = e.regs.ctrlMode ∧
      g.ctrlEncdec = e.regs.ctrlEncdec := by
  cases ha : i.cpu.arvalid <;> simp [DmaEngine.regsStep, DmaEngine.doStart, hw, ha]

theorem fsm_quiet (e : DmaEngine) (i : EngineIn) (h1 : e.fsm.state ≠ .idle) (h2 : e.fsm.state ≠ .wrResp) :
    let f := e.fsmStep true i
    f.curSrc = e.fsm.curSrc ∧ f.curDst = e.fsm.curDst ∧ f.blocksLeft = e.fsm.blocksLeft ∧ f.chainLoadIv = false := by
  simp only [DmaEngine.fsmStep, DmaEngine.fsmCase]
  cases hs : e.fsm.state <;> simp_all <;> grind

/-- The chain takes a loaded IV and otherwise keeps its own, unless a block ends. -/
theorem chainIv_step (h : s.engine.uChain.state = .idle ∨ s.engine.uChain.uCore.done = false)
    (hl : (s.step true x).engine.fsm.chainLoadIv = false) : chainIv (s.step true x) = chainIv s := by
  rw [chainIv, hl]
  exact ivReg_step h

theorem mem_quiet (h : s.ram.wState = .idle) : (s.step true x).ram.mem = s.ram.mem := by
  have hm : (s.step true x).ram.mem = _ := (ram_write s.ram (DmaEngine.burst s.engine.fsm)).1
  rw [hm, DmaRam.writePath, h]
  cases (DmaEngine.burst s.engine.fsm).awvalid <;> rfl

theorem read_step :
    let t := s.ram.readPath s.ram.mem (DmaEngine.burst s.engine.fsm)
    let s' := (s.step true x).ram
    s'.rState = t.rState ∧ s'.rWordIdx = t.rWordIdx ∧ s'.rBeatsLeft = t.rBeatsLeft ∧ s'.sRvalid = t.sRvalid ∧
      s'.sRdata = t.sRdata :=
  ram_read s.ram _

theorem write_step :
    let t := s.ram.writePath (DmaEngine.burst s.engine.fsm)
    let s' := (s.step true x).ram
    s'.mem = t.mem ∧ s'.wState = t.wState ∧ s'.wWordIdx = t.wWordIdx ∧ s'.sBvalid = t.sBvalid :=
  ram_write s.ram _

variable {st st' : EngineState} {j : DmaJob} {i : ℕ} {m m' : Mem k} {v : Block} {x}

theorem Frame.next (h : Frame j i s) (hw : DmaEngine.doWrite x.cpu = false) (h1 : s.engine.fsm.state ≠ .idle)
    (h2 : s.engine.fsm.state ≠ .wrResp) : Frame j i (s.step true x) := by
  obtain ⟨f1, f2, f3, -⟩ := fsm_quiet s.engine ⟨x.cpu, s.ram.rsp, x.doneWins⟩ h1 h2
  obtain ⟨r1, r2, r3, r4⟩ := regs_quiet s.engine ⟨x.cpu, s.ram.rsp, x.doneWins⟩ hw
  exact {
    curSrc := f1.trans h.curSrc
    curDst := f2.trans h.curDst
    blocksLeft := (congrArg (·.toNat + i) f3).trans h.blocksLeft
    keyReg := r1.trans h.keyReg
    ivReg := r2.trans h.ivReg
    ctrlMode := r3.trans h.ctrlMode
    ctrlEncdec := r4.trans h.ctrlEncdec }

theorem At.next (h : At st j i m v s) (hw : DmaEngine.doWrite x.cpu = false) (h1 : st ≠ .idle)
    (h2 : st ≠ .wrResp) (hch : s.engine.uChain.state = .idle ∨ s.engine.uChain.uCore.done = false)
    (hst : (s.step true x).engine.fsm.state = st') (hm : (s.step true x).ram.mem = m') :
    At st' j i m' v (s.step true x) := by
  obtain ⟨-, -, -, hl⟩ := fsm_quiet s.engine ⟨x.cpu, s.ram.rsp, x.doneWins⟩ (h.state ▸ h1) (h.state ▸ h2)
  exact ⟨h.frame.next hw (h.state ▸ h1) (h.state ▸ h2), hst, hm, (chainIv_step x hch hl).trans h.iv⟩

end Step

/-! ## The stages of a block -/

/-- Four words push out what was in the buffer. -/
theorem shiftIn_four (b : Block) (w0 w1 w2 w3 : Word32) :
    DmaEngine.shiftIn (DmaEngine.shiftIn (DmaEngine.shiftIn (DmaEngine.shiftIn b w0) w1) w2) w3 =
      w0 ++ w1 ++ w2 ++ w3 := by
  simp only [DmaEngine.shiftIn]
  ext n hn
  simp only [BitVec.getElem_append, BitVec.getElem_extractLsb', BitVec.getLsbD_append, BitVec.getLsbD_extractLsb']
  grind

/-- The read buffer after `n` words. -/
def gather (m : Mem k) (a : ℕ → BitVec k) (b : Block) : ℕ → Block
  | 0 => b
  | n + 1 => DmaEngine.shiftIn (gather m a b n) (m (a n))

theorem gather_four (m : Mem k) (a : ℕ → BitVec k) (b : Block) : gather m a b 4 = readBlock m a :=
  shiftIn_four b (m (a 0)) (m (a 1)) (m (a 2)) (m (a 3))

/-- The write buffer after `n` words have left it. -/
def drained (b : Block) : ℕ → Block
  | 0 => b
  | n + 1 => DmaEngine.shiftIn (drained b n) 0

theorem drained_slice {b : Block} {n p : ℕ} (hp : 32 * n ≤ p) (hp' : p ≤ 96) :
    (drained b n).extractLsb' p 32 = b.extractLsb' (p - 32 * n) 32 := by
  induction n generalizing p with
  | zero => rfl
  | succ n ih =>
    rw [drained, DmaEngine.shiftIn, BitVec.extractLsb'_append_eq_of_le (by omega),
      Concat.extract_extract _ _ _ (by omega), ih (by omega) (by omega)]
    congr 1
    omega

section Stages

variable (j : DmaJob) (i : ℕ) (m : Mem k) (v : Block)

/-- The read address is out from the second cycle on. -/
structure RdAddr (a : Bool) (s : DmaSys k) : Prop extends At .rdAddr j i m v s where
  arvalid : s.engine.fsm.mArvalid = a
  araddr : a = true → s.engine.fsm.mAraddr = s.engine.fsm.curSrc ∧ s.engine.fsm.mArlen = 3

/-- The memory has given `n` words, the engine taken all but the last of them. -/
structure RdData (n : ℕ) (s : DmaSys k) : Prop extends At .rdData j i m v s where
  burst : n ≤ 3 → s.ram.rState = .burst ∧ s.ram.rWordIdx = blockWord k j.src i n ∧
    s.ram.rBeatsLeft = BitVec.ofNat 8 (3 - n)
  idle : n = 4 → s.ram.rState = .idle
  rvalid : s.ram.sRvalid = decide (0 < n)
  rdata : 0 < n → s.ram.sRdata = m (blockWord k j.src i (n - 1))
  rdBlock : ∃ b, s.engine.fsm.rdBlock = gather m (blockWord k j.src i) b (n - 1)

/-- What the chain is asked for block `b`. -/
def DmaJob.request (b : Block) : ChainIn where
  loadIv := false
  ivIn := j.iv
  start := true
  encdec := j.dec
  mode := j.mode
  keyIn := j.key
  dataIn := b

structure AesGo (b : Block) (s : DmaSys k) : Prop extends At .aesGo j i m v s where
  rdBlock : s.engine.fsm.rdBlock = b

structure AesWait (b : Block) (n : ℕ) (s : DmaSys k) : Prop extends At .aesWait j i m v s where
  working : Working (j.request b) v n s.engine.uChain

structure AesDone (b : Block) (s : DmaSys k) : Prop where
  at_wait : At .aesWait j i m (blockNext (aes j.key) (chainMode j.mode) j.dec v b) s
  answered : Answered (j.request b) v s.engine.uChain

/-- The write address is out from the second cycle on; `b` is the block to write. -/
structure WrAddr (b : Block) (a : Bool) (s : DmaSys k) : Prop extends At .wrAddr j i m v s where
  awvalid : s.engine.fsm.mAwvalid = a
  awaddr : a = true → s.engine.fsm.mAwaddr = s.engine.fsm.curDst
  wrBlock : s.engine.fsm.wrBlock = b

/-- `n` words are written. -/
structure WrData (b : Block) (n : ℕ) (s : DmaSys k) : Prop
    extends At .wrData j i (writeWords m (blockWord k j.dst i) b n) v s where
  wordIdx : s.ram.wWordIdx = blockWord k j.dst i n
  beatCnt : s.engine.fsm.beatCnt = BitVec.ofNat 2 n
  wrBlock : s.engine.fsm.wrBlock = drained b n

end Stages

/-! ## One edge in each stage -/

section Edge

variable {s : DmaSys k} {x : DmaIn} {j : DmaJob} {i : ℕ} {m : Mem k} {v b : Block} {n : ℕ}

theorem Ctl.chain_idle (hc : Ctl s) (h : s.engine.fsm.state ≠ .aesWait) : s.engine.uChain.state = .idle :=
  hc.engine.chain_idle h

/-- Outside `wrData` the write side of the memory is idle. -/
theorem Ctl.write_idle (hc : Ctl s) (h : s.engine.fsm.state ≠ .wrData) : s.ram.wState = .idle := by
  cases hs : s.ram.wState with
  | idle => rfl
  | burst => exact absurd (hc.write.1 hs) h

theorem Ctl.read_idle (hc : Ctl s) (h : s.engine.fsm.state ≠ .rdData) : s.ram.rState = .idle := by
  cases hs : s.ram.rState with
  | idle => rfl
  | burst => exact absurd (hc.read hs) h

/-- `At.next` where neither the memory nor the chain finishes anything. -/
theorem At.quiet {st st' : EngineState} (h : At st j i m v s) (hc : Ctl s)
    (hw : DmaEngine.doWrite x.cpu = false)
    (hst : st ≠ .idle ∧ st ≠ .aesWait ∧ st ≠ .wrData ∧ st ≠ .wrResp)
    (hs' : (s.step true x).engine.fsm.state = st') : At st' j i m v (s.step true x) := by
  obtain ⟨h1, h2, h3, h4⟩ := hst
  refine h.next hw h1 h4 (.inl (hc.chain_idle (h.state ▸ h2))) hs' ?_
  rw [mem_quiet x (hc.write_idle (h.state ▸ h3)), h.mem]

/-- The memory takes one word. -/
theorem word_written (hc : Ctl s) (hn : n ≤ 3) (h : WrData j i m v b n s) :
    (s.step true x).ram.mem = writeWords m (blockWord k j.dst i) b (n + 1) ∧
      (s.step true x).ram.wWordIdx = s.ram.wWordIdx + 1 := by
  have hb : s.ram.wState = .burst := hc.write.2 h.state
  have hv : s.engine.fsm.mWvalid = true := hc.strobes.wvalid.2 h.state
  have hword : s.engine.fsm.wrBlock.extractLsb' 96 32 = b.extractLsb' (96 - 32 * n) 32 := by
    rw [h.wrBlock, drained_slice (by omega) le_rfl]
  obtain ⟨h1, -, h3, -⟩ := write_step (s := s) x
  simp only [DmaRam.writePath, hb, DmaEngine.burst, hv, if_true, Bytes.merge_all, hword] at h1 h3
  rw [h1, h3]
  split <;> simp [writeWords, h.mem, h.wordIdx]

variable (hc : Ctl s) (hw : DmaEngine.doWrite x.cpu = false)
include hc hw

theorem rdAddr_out (h : RdAddr j i m v false s) : RdAddr j i m v true (s.step true x) := by
  have hf : (s.step true x).engine.fsm =
      { s.engine.fsm with
        irqPulse := false, chainLoadIv := false, chainStart := false, mAraddr := s.engine.fsm.curSrc, mArlen := 3
        mArsize := axi4Size4B, mArburst := axi4BurstIncr, mArvalid := true } := by
    simp [DmaSys.step, DmaEngine.step, DmaEngine.fsmStep, DmaEngine.fsmCase, h.state, h.arvalid]
  refine ⟨h.toAt.quiet hc hw (by simp) ?_, ?_, ?_⟩ <;> simp [hf, h.state]

theorem rdData_start (hk : k ≤ 30) (h : RdAddr j i m v true s) : RdData j i m v 0 (s.step true x) := by
  have hr := hc.read_idle (by simp [h.state])
  have hf : (s.step true x).engine.fsm.state = .rdData ∧ (s.step true x).engine.fsm.rdBlock = s.engine.fsm.rdBlock := by
    simp [DmaSys.step, DmaEngine.step, DmaEngine.fsmStep, DmaEngine.fsmCase, h.state, h.arvalid, DmaRam.rsp, hr]
  obtain ⟨ha, hl⟩ := h.araddr rfl
  obtain ⟨h1, h2, h3, h4, -⟩ := read_step (s := s) x
  simp only [DmaRam.readPath, hr, DmaEngine.burst, h.arvalid, if_true, ha, hl, h.frame.curSrc] at h1 h2 h3 h4
  exact {
    toAt := h.toAt.quiet hc hw (by simp) hf.1
    burst := fun _ => ⟨h1, h2.trans (wordIdx_block hk _ _), h3⟩
    idle := by simp
    rvalid := h4
    rdata := by simp
    rdBlock := ⟨_, hf.2⟩ }

theorem rdData_step (hn : n ≤ 3) (h : RdData j i m v n s) : RdData j i m v (n + 1) (s.step true x) := by
  obtain ⟨hr, hidx, hleft⟩ := h.burst hn
  obtain ⟨bk, hbk⟩ := h.rdBlock
  have hready : s.engine.fsm.mRready = true := hc.strobes.rready.2 h.state
  -- the memory is still in the burst, so the word it shows is not the last
  have hlast : s.ram.sRvalid = true → s.ram.sRlast = false := hc.more hr
  have hf : (s.step true x).engine.fsm.state = .rdData ∧
      (s.step true x).engine.fsm.rdBlock = gather m (blockWord k j.src i) bk n := by
    have hrd := h.rdata
    have hv := h.rvalid
    cases n with
    | zero =>
      simp [DmaSys.step, DmaEngine.step, DmaEngine.fsmStep, DmaEngine.fsmCase, h.state, DmaRam.rsp, hv, hbk]
    | succ n =>
      simp [DmaSys.step, DmaEngine.step, DmaEngine.fsmStep, DmaEngine.fsmCase, h.state, DmaRam.rsp, hv, hbk,
        hready, hlast, hrd, gather]
  have hzero : s.ram.rBeatsLeft = 0#8 ↔ n = 3 := by
    rw [hleft, ← BitVec.toNat_inj, BitVec.toNat_ofNat]
    simp; omega
  have hread : s.ram.readPath s.ram.mem (DmaEngine.burst s.engine.fsm) =
      { s.ram with
        sRdata := s.ram.mem s.ram.rWordIdx, sRresp := axiRespOkay, sRlast := decide (n = 3), sRvalid := true
        rState := if n = 3 then .idle else .burst
        rWordIdx := if n = 3 then s.ram.rWordIdx else s.ram.rWordIdx + 1
        rBeatsLeft := if n = 3 then s.ram.rBeatsLeft else s.ram.rBeatsLeft - 1 } := by
    by_cases h3 : n = 3 <;> simp [DmaRam.readPath, hr, DmaEngine.burst, hready, hzero, h3]
  obtain ⟨h1, h2, h3, h4, h5⟩ := read_step (s := s) x
  rw [hread] at h1 h2 h3 h4 h5
  exact {
    toAt := h.toAt.quiet hc hw (by simp) hf.1
    burst := fun hn' => by
      have hne : n ≠ 3 := by omega
      refine ⟨h1.trans (if_neg hne), (h2.trans (if_neg hne)).trans ?_, (h3.trans (if_neg hne)).trans ?_⟩
      · rw [hidx, blockWord_succ]; rfl
      · rw [hleft, show 3 - n = 3 - (n + 1) + 1 by omega, BitVec.ofNat_add]
        exact BitVec.add_sub_cancel _ _
    idle := fun hn' => h1.trans (if_pos (by omega))
    rvalid := by simp [h4]
    rdata := fun _ => by rw [h5, h.mem, hidx]; rfl
    rdBlock := ⟨bk, hf.2⟩ }

theorem aesGo_start (h : RdData j i m v 4 s) : AesGo j i m v (readBlock m (blockWord k j.src i)) (s.step true x) := by
  obtain ⟨bk, hbk⟩ := h.rdBlock
  have hready : s.engine.fsm.mRready = true := hc.strobes.rready.2 h.state
  obtain ⟨hv, hl⟩ := hc.last h.state (h.idle rfl)
  have hf : (s.step true x).engine.fsm.state = .aesGo ∧
      (s.step true x).engine.fsm.rdBlock = gather m (blockWord k j.src i) bk 4 := by
    simp [DmaSys.step, DmaEngine.step, DmaEngine.fsmStep, DmaEngine.fsmCase, h.state, DmaRam.rsp, hv, hbk, hl,
      hready, h.rdata, gather]
  exact ⟨h.toAt.quiet hc hw (by simp) hf.1, hf.2.trans (gather_four _ _ _)⟩

theorem aesWait_start (h : AesGo j i m v b s) : AesWait j i m v b 0 (s.step true x) := by
  have hl : s.engine.fsm.chainLoadIv = false := by
    cases hl : s.engine.fsm.chainLoadIv with
    | false => rfl
    | true => simpa [h.state] using (hc.strobes.loadIv hl).1
  have hreq : s.engine.chainIn = j.request b := by
    simp [DmaEngine.chainIn, DmaJob.request, hl, h.frame.ivReg, h.frame.keyReg, h.frame.ctrlMode,
      h.frame.ctrlEncdec, h.rdBlock, hc.strobes.start.2 h.state]
  have hch := hc.chain_idle (by simp [h.state])
  have hv : s.engine.uChain.ivReg = v := by simpa [chainIv, hl] using h.iv
  have hw0 : Working (j.request b) v 0 (s.step true x).engine.uChain := by
    have := working_start (i := s.engine.chainIn) hc.sync
      (by simp [AesChain.coreStart, hch, DmaEngine.chainIn, hc.strobes.start.2 h.state])
    rw [hv, hreq] at this
    show Working _ _ _ (s.engine.uChain.step true s.engine.chainIn)
    rwa [hreq]
  refine ⟨h.toAt.quiet hc hw (by simp) ?_, hw0⟩
  simp [DmaSys.step, DmaEngine.step, DmaEngine.fsmStep, DmaEngine.fsmCase, h.state]

theorem aesWait_step (hn : n < 21) (h : AesWait j i m v b n s) : AesWait j i m v b (n + 1) (s.step true x) := by
  have hst : (s.step true x).engine.fsm.state = .aesWait := by
    simp [DmaSys.step, DmaEngine.step, DmaEngine.fsmStep, DmaEngine.fsmCase, h.state, h.working.doneReg]
  have hd : s.engine.uChain.uCore.done = false := by simp [h.working.core_done]; omega
  exact ⟨h.toAt.next hw (by simp) (by simp) (.inr hd) hst
    ((mem_quiet x (hc.write_idle (by simp [h.state]))).trans h.mem), working_step h.working hn⟩

theorem aesDone_start (h : AesWait j i m v b 21 s) : AesDone j i m v b (s.step true x) := by
  have hl : s.engine.fsm.chainLoadIv = false := by
    cases hl : s.engine.fsm.chainLoadIv with
    | false => rfl
    | true => simpa [h.state] using (hc.strobes.loadIv hl).1
  have hv : s.engine.uChain.ivReg = v := by simpa [chainIv, hl] using h.iv
  have ha : Answered (j.request b) v (s.step true x).engine.uChain := answered_step h.working hv hl
  have hf : (s.step true x).engine.fsm.state = .aesWait ∧ (s.step true x).engine.fsm.chainLoadIv = false := by
    simp [DmaSys.step, DmaEngine.step, DmaEngine.fsmStep, DmaEngine.fsmCase, h.state, h.working.doneReg]
  exact {
    at_wait := {
      frame := h.frame.next hw (by simp [h.state]) (by simp [h.state])
      state := hf.1
      mem := (mem_quiet x (hc.write_idle (by simp [h.state]))).trans h.mem
      iv := by rw [chainIv, hf.2]; exact ha.ivReg }
    answered := ha }

theorem wrAddr_start (h : AesDone j i m v b s) :
    WrAddr j i m (blockNext (aes j.key) (chainMode j.mode) j.dec v b)
      (blockOut (aes j.key) (chainMode j.mode) j.dec v b) false (s.step true x) := by
  have hs := h.at_wait.state
  have hf : (s.step true x).engine.fsm.state = .wrAddr ∧
      (s.step true x).engine.fsm.mAwvalid = s.engine.fsm.mAwvalid ∧
      (s.step true x).engine.fsm.wrBlock = s.engine.uChain.dataOutReg := by
    simp [DmaSys.step, DmaEngine.step, DmaEngine.fsmStep, DmaEngine.fsmCase, hs, h.answered.doneReg]
  have hav : s.engine.fsm.mAwvalid = false := by
    cases hav : s.engine.fsm.mAwvalid with
    | false => rfl
    | true => simpa [hs] using hc.strobes.awvalid hav
  exact {
    toAt := h.at_wait.next hw (by simp) (by simp) (.inl h.answered.state) hf.1
      ((mem_quiet x (hc.write_idle (by simp [hs]))).trans h.at_wait.mem)
    awvalid := hf.2.1.trans hav
    awaddr := by simp
    wrBlock := hf.2.2.trans h.answered.dataOutReg }

theorem wrAddr_out (h : WrAddr j i m v b false s) : WrAddr j i m v b true (s.step true x) := by
  have hf : (s.step true x).engine.fsm =
      { s.engine.fsm with
        irqPulse := false, chainLoadIv := false, chainStart := false, mAwaddr := s.engine.fsm.curDst, mAwlen := 3
        mAwsize := axi4Size4B, mAwburst := axi4BurstIncr, mAwvalid := true } := by
    simp [DmaSys.step, DmaEngine.step, DmaEngine.fsmStep, DmaEngine.fsmCase, h.state, h.awvalid]
  refine ⟨h.toAt.quiet hc hw (by simp) ?_, ?_, ?_, ?_⟩ <;> simp [hf, h.state, h.wrBlock]

theorem wrData_start (hk : k ≤ 30) (h : WrAddr j i m v b true s) : WrData j i m v b 0 (s.step true x) := by
  have hr := hc.write_idle (by simp [h.state])
  have hf : (s.step true x).engine.fsm.state = .wrData ∧ (s.step true x).engine.fsm.beatCnt = 0 ∧
      (s.step true x).engine.fsm.wrBlock = s.engine.fsm.wrBlock := by
    simp [DmaSys.step, DmaEngine.step, DmaEngine.fsmStep, DmaEngine.fsmCase, h.state, h.awvalid, DmaRam.rsp, hr]
  obtain ⟨-, -, h3, -⟩ := write_step (s := s) x
  simp only [DmaRam.writePath, hr, DmaEngine.burst, h.awvalid, if_true, h.awaddr rfl, h.frame.curDst] at h3
  exact {
    toAt := h.toAt.quiet hc hw (by simp) hf.1
    wordIdx := h3.trans (wordIdx_block hk _ _)
    beatCnt := hf.2.1
    wrBlock := hf.2.2.trans h.wrBlock }

theorem wrData_step (hn : n ≤ 2) (h : WrData j i m v b n s) : WrData j i m v b (n + 1) (s.step true x) := by
  have hb : s.ram.wState = .burst := hc.write.2 h.state
  have hv : s.engine.fsm.mWvalid = true := hc.strobes.wvalid.2 h.state
  have hne : s.engine.fsm.beatCnt ≠ 3#2 := by
    rw [h.beatCnt, Ne, ← BitVec.toNat_inj, BitVec.toNat_ofNat]
    simp; omega
  have hf : (s.step true x).engine.fsm.state = .wrData ∧
      (s.step true x).engine.fsm.beatCnt = s.engine.fsm.beatCnt + 1 ∧
      (s.step true x).engine.fsm.wrBlock = DmaEngine.shiftIn s.engine.fsm.wrBlock 0 := by
    simp [DmaSys.step, DmaEngine.step, DmaEngine.fsmStep, DmaEngine.fsmCase, h.state, DmaRam.rsp, hb, hv, hne]
  obtain ⟨hm, hidx⟩ := word_written hc (by omega) h
  exact {
    toAt := h.toAt.next hw (by simp) (by simp) (.inl (hc.chain_idle (by simp [h.state]))) hf.1 hm
    wordIdx := by rw [hidx, h.wordIdx, blockWord_succ]; rfl
    beatCnt := by rw [hf.2.1, h.beatCnt, BitVec.ofNat_add]; rfl
    wrBlock := by rw [hf.2.2, h.wrBlock, drained] }

theorem wrResp_start (h : WrData j i m v b 3 s) :
    At .wrResp j i (writeBlock m (blockWord k j.dst i) b) v (s.step true x) := by
  have hb : s.ram.wState = .burst := hc.write.2 h.state
  have hv : s.engine.fsm.mWvalid = true := hc.strobes.wvalid.2 h.state
  refine h.toAt.next hw (by simp) (by simp) (.inl (hc.chain_idle (by simp [h.state]))) ?_ (word_written hc le_rfl h).1
  simp [DmaSys.step, DmaEngine.step, DmaEngine.fsmStep, DmaEngine.fsmCase, h.state, DmaRam.rsp, hb, hv, h.beatCnt]

/-- After the response comes the next block, if there is one. -/
theorem nextBlock (hi : i + 1 < j.len.toNat) (h : At .wrResp j i m v s) :
    RdAddr j (i + 1) m v false (s.step true x) := by
  have hb : s.ram.sBvalid = true := hc.bvalid.2 h.state
  have hleft := h.frame.blocksLeft
  have hne : s.engine.fsm.blocksLeft ≠ 1#32 := by
    intro h1
    simp [h1] at hleft
    omega
  have hav : s.engine.fsm.mArvalid = false := by
    cases hav : s.engine.fsm.mArvalid with
    | false => rfl
    | true => simpa [h.state] using hc.strobes.arvalid hav
  have hf : (s.step true x).engine.fsm =
      { s.engine.fsm with
        irqPulse := false, chainLoadIv := false, chainStart := false, mBready := false
        curSrc := s.engine.fsm.curSrc + 16, curDst := s.engine.fsm.curDst + 16
        blocksLeft := s.engine.fsm.blocksLeft - 1, state := .rdAddr } := by
    simp [DmaSys.step, DmaEngine.step, DmaEngine.fsmStep, DmaEngine.fsmCase, h.state, DmaRam.rsp, hb, hne]
  obtain ⟨r1, r2, r3, r4⟩ := regs_quiet s.engine ⟨x.cpu, s.ram.rsp, x.doneWins⟩ hw
  have hadd (a : Word32) : a + BitVec.ofNat 32 (16 * i) + 16 = a + BitVec.ofNat 32 (16 * (i + 1)) :=
    Counters.add_ofNat_mul_succ a 16 i
  have hsub : (s.engine.fsm.blocksLeft - 1).toNat + 1 = s.engine.fsm.blocksLeft.toNat :=
    Counters.toNat_pred fun h0 => by
      have hall := (Counters.eq_zero_iff hleft).1 h0
      omega
  exact {
    frame := {
      curSrc := by rw [hf, ← hadd, ← h.frame.curSrc]
      curDst := by rw [hf, ← hadd, ← h.frame.curDst]
      blocksLeft := by rw [hf]; show (s.engine.fsm.blocksLeft - 1).toNat + (i + 1) = _; omega
      keyReg := r1.trans h.frame.keyReg
      ivReg := r2.trans h.frame.ivReg
      ctrlMode := r3.trans h.frame.ctrlMode
      ctrlEncdec := r4.trans h.frame.ctrlEncdec }
    state := by rw [hf]
    mem := (mem_quiet x (hc.write_idle (by simp [h.state]))).trans h.mem
    iv := (chainIv_step x (.inl (hc.chain_idle (by simp [h.state]))) (by rw [hf])).trans h.iv
    arvalid := by rw [hf]; exact hav
    araddr := by simp }

omit hw in
theorem lastBlock (hi : i + 1 = j.len.toNat) (h : At .wrResp j i m v s) :
    (s.step true x).engine.fsm.state = .done ∧ (s.step true x).ram.mem = m := by
  have hb : s.ram.sBvalid = true := hc.bvalid.2 h.state
  have h1 : s.engine.fsm.blocksLeft = 1#32 := by
    have := h.frame.blocksLeft
    apply BitVec.eq_of_toNat_eq
    simp; omega
  refine ⟨?_, (mem_quiet x (hc.write_idle (by simp [h.state]))).trans h.mem⟩
  simp [DmaSys.step, DmaEngine.step, DmaEngine.fsmStep, DmaEngine.fsmCase, h.state, DmaRam.rsp, hb, h1]

theorem done_step (h : s.engine.fsm.state = .done) :
    (s.step true x).engine.fsm.statusBusy = false ∧ (s.step true x).irq = true ∧
      (s.step true x).engine.regs.statusDone = true ∧ (s.step true x).ram.mem = s.ram.mem ∧
      (s.step true x).engine.fsm.state = .idle := by
  refine ⟨?_, ?_, ?_, mem_quiet x (hc.write_idle (by simp [h])), ?_⟩
  · simp [DmaSys.step, DmaEngine.step, DmaEngine.fsmStep, DmaEngine.fsmCase, h]
  · simp [DmaSys.irq, DmaSys.step, DmaEngine.step, DmaEngine.fsmStep, DmaEngine.fsmCase, h]
  · have hcl : DmaEngine.clearsDone x.cpu = false := by simp [DmaEngine.clearsDone, hw]
    cases ha : x.cpu.arvalid <;>
      simp [DmaSys.step, DmaEngine.step, DmaEngine.regsStep, DmaEngine.doStart, DmaEngine.statusDoneNext, hw, h, hcl, ha]
  · simp [DmaSys.step, DmaEngine.step, DmaEngine.fsmStep, DmaEngine.fsmCase, h]

end Edge

end RiscvSoc.Dma
