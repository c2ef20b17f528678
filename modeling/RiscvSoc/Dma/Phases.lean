import RiscvSoc.Dma.Bursts
import RiscvSoc.Dma.Run
/-!
# An operation as a sequence of bursts

What an operation asks of its memory, as a function of the registers at START, the
words that come back and the key of each block; and the phases of a block, with any
number of cycles between one handshake and the next.
-/

namespace RiscvSoc.Dma

open Sync Aes Modes

/-! ## The bursts of an operation -/

/-- What comes in while an operation runs: the words that are read, and what is in the
key registers when a block goes into the chain. -/
structure Feed where
  data : ℕ → Word32
  key : ℕ → Block

/-- Word `n` of block `i`. -/
def Feed.word (x : Feed) (i n : ℕ) : Word32 := x.data (4 * i + n)

def Feed.block (x : Feed) (i : ℕ) : Block := x.word i 0 ++ x.word i 1 ++ x.word i 2 ++ x.word i 3

namespace DmaJob

variable (j : DmaJob) (x : Feed)

/-- `blocks_left` counts down to 1 from LEN, and from 0 through all of its values. -/
def blocks : ℕ := if j.len = 0 then 2 ^ 32 else j.len.toNat

/-- The chaining value that block `i` starts from. -/
def chainVal : ℕ → Block
  | 0 => j.iv
  | i + 1 => blockNext (aes (x.key i)) (chainMode j.mode) j.dec (chainVal i) (x.block i)

def result (i : ℕ) : Block := blockOut (aes (x.key i)) (chainMode j.mode) j.dec (j.chainVal x i) (x.block i)

/-- A read burst of four beats, a write burst of four beats, and its response. -/
def blockEvents (i : ℕ) : List BurstEvent :=
  .ar (j.src + BitVec.ofNat 32 (16 * i)) 3 axi4Size4B axi4BurstIncr ::
    ((List.range 4).map fun n => .r (x.word i n) (n = 3)) ++
    .aw (j.dst + BitVec.ofNat 32 (16 * i)) 3 axi4Size4B axi4BurstIncr ::
    ((List.range 4).map fun n => .w ((j.result x i).extractLsb' (96 - 32 * n) 32) 0xF (n = 3)) ++ [.b]

/-- The bursts of the first `n` blocks. -/
def events (n : ℕ) : List BurstEvent := (List.range n).flatMap (j.blockEvents x)

theorem blocks_pos : 0 < j.blocks := by
  by_cases h : j.len = 0
  · simp [blocks, h]
  · have h0 := Counters.toNat_ne_zero h
    rw [blocks, if_neg h]
    omega

theorem events_succ (n : ℕ) : j.events x (n + 1) = j.events x n ++ j.blockEvents x n := by
  simp [events, List.range_succ]

theorem events_prefix {n m : ℕ} (h : n ≤ m) : j.events x n <+: j.events x m := by
  induction h with
  | refl => exact List.prefix_rfl
  | step _ ih => exact ih.trans ⟨_, (j.events_succ x _).symm⟩

end DmaJob

/-! ## Phases -/

inductive Phase
  | rdAddr (out : Bool)
  | rdData (n : ℕ)
  | aesGo
  | aesWait (n : ℕ)
  | aesDone
  | wrAddr (out : Bool)
  | wrData (n : ℕ)
  | wrResp
  deriving DecidableEq

namespace Phase

/-- The phase after this one, in the same block. -/
def next : Phase → Phase
  | rdAddr false => rdAddr true
  | rdAddr true => rdData 0
  | rdData n => if n < 3 then rdData (n + 1) else aesGo
  | aesGo => aesWait 0
  | aesWait n => if n < 21 then aesWait (n + 1) else aesDone
  | aesDone => wrAddr false
  | wrAddr false => wrAddr true
  | wrAddr true => wrData 0
  | wrData n => if n < 3 then wrData (n + 1) else wrResp
  | wrResp => wrResp

/-- The engine goes on at the edge with `i`. -/
def goes (i : EngineIn) : Phase → Bool
  | rdAddr true => i.ram.arready
  | rdData _ => i.ram.rvalid
  | wrAddr true => i.ram.awready
  | wrData _ => i.ram.wready
  | wrResp => i.ram.bvalid
  | rdAddr false | aesGo | aesWait _ | aesDone | wrAddr false => true

/-- The engine's state in a phase. -/
def state : Phase → EngineState
  | rdAddr _ => .rdAddr
  | rdData _ => .rdData
  | aesGo => .aesGo
  | aesWait _ | aesDone => .aesWait
  | wrAddr _ => .wrAddr
  | wrData _ => .wrData
  | wrResp => .wrResp

/-- How many of the block's handshakes have been made. -/
def past : Phase → ℕ
  | rdAddr _ => 0
  | rdData n => 1 + n
  | aesGo | aesWait _ | aesDone | wrAddr _ => 5
  | wrData n => 6 + n
  | wrResp => 10

/-- How many phases are to come. -/
def left : Phase → ℕ
  | rdAddr out => 37 - out.toNat
  | rdData n => 35 - n
  | aesGo => 31
  | aesWait n => 30 - n
  | aesDone => 8
  | wrAddr out => 7 - out.toNat
  | wrData n => 5 - n
  | wrResp => 1

/-- The chain has been started for this block. -/
def keyed : Phase → Bool
  | rdAddr _ | rdData _ | aesGo => false
  | aesWait _ | aesDone | wrAddr _ | wrData _ | wrResp => true

end Phase

/-- The read buffer after `n` words. -/
def received (w : ℕ → Word32) (b : Block) : ℕ → Block
  | 0 => b
  | n + 1 => DmaEngine.shiftIn (received w b n) (w n)

theorem received_four (x : Feed) (i : ℕ) (b : Block) : received (x.word i) b 4 = x.block i :=
  shiftIn_four b (x.word i 0) (x.word i 1) (x.word i 2) (x.word i 3)

/-- The chaining value the next block starts from. -/
def DmaEngine.nextIv (e : DmaEngine) : Block := if e.fsm.chainLoadIv then e.regs.ivReg else e.uChain.ivReg

/-- In state `st` of block `i`, with chaining value `v`. -/
structure InBlock (st : EngineState) (j : DmaJob) (i : ℕ) (v : Block) (e : DmaEngine) : Prop where
  state : e.fsm.state = st
  curSrc : e.fsm.curSrc = j.src + BitVec.ofNat 32 (16 * i)
  curDst : e.fsm.curDst = j.dst + BitVec.ofNat 32 (16 * i)
  blocksLeft : e.fsm.blocksLeft = j.len - BitVec.ofNat 32 i
  ctrlMode : e.regs.ctrlMode = j.mode
  ctrlEncdec : e.regs.ctrlEncdec = j.dec
  iv : e.nextIv = v

/-- The chain has been asked for block `i`. -/
structure Asked (j : DmaJob) (x : Feed) (i : ℕ) (q : ChainIn) : Prop where
  key : q.keyIn = x.key i
  data : q.dataIn = x.block i
  mode : q.mode = j.mode
  encdec : q.encdec = j.dec

def InPhase (j : DmaJob) (x : Feed) (i : ℕ) : Phase → DmaEngine → Prop
  | .rdAddr out, e => InBlock .rdAddr j i (j.chainVal x i) e ∧ e.fsm.mArvalid = out
  | .rdData n, e =>
    InBlock .rdData j i (j.chainVal x i) e ∧ n ≤ 3 ∧ ∃ b, e.fsm.rdBlock = received (x.word i) b n
  | .aesGo, e => InBlock .aesGo j i (j.chainVal x i) e ∧ e.fsm.rdBlock = x.block i
  | .aesWait n, e =>
    InBlock .aesWait j i (j.chainVal x i) e ∧ n ≤ 21 ∧ ∃ q, Asked j x i q ∧ Working q (j.chainVal x i) n e.uChain
  | .aesDone, e =>
    InBlock .aesWait j i (j.chainVal x (i + 1)) e ∧ ∃ q, Asked j x i q ∧ Answered q (j.chainVal x i) e.uChain
  | .wrAddr out, e =>
    InBlock .wrAddr j i (j.chainVal x (i + 1)) e ∧ e.fsm.mAwvalid = out ∧ e.fsm.wrBlock = j.result x i
  | .wrData n, e =>
    InBlock .wrData j i (j.chainVal x (i + 1)) e ∧ n ≤ 3 ∧ e.fsm.beatCnt = BitVec.ofNat 2 n ∧
      e.fsm.wrBlock = drained (j.result x i) n
  | .wrResp, e => InBlock .wrResp j i (j.chainVal x (i + 1)) e

theorem InPhase.state_eq {j : DmaJob} {x : Feed} {i : ℕ} {ph : Phase} {e : DmaEngine} (h : InPhase j x i ph e) :
    e.fsm.state = ph.state := by
  cases ph with
  | wrResp => exact h.state
  | rdAddr | rdData | aesGo | aesWait | aesDone | wrAddr | wrData => exact h.1.state

/-- What comes in at an edge is the feed's. -/
structure Feeds (x : Feed) (i : ℕ) (ph : Phase) (e : DmaEngine) (inp : EngineIn) : Prop where
  data : ∀ n, ph = .rdData n → inp.ram.rvalid = true → inp.ram.rdata = x.word i n ∧ (inp.ram.rlast = true ↔ n = 3)
  key : ph = .aesGo → e.regs.keyReg = x.key i

/-! ## The events of a block, one by one -/

section Events

variable (j : DmaJob) (x : Feed) (i : ℕ) {n : ℕ}

theorem take_succ_of_getElem? {α : Type*} {l : List α} {a : α} (h : l[n]? = some a) :
    l.take n ++ [a] = l.take (n + 1) := by
  rw [List.take_add_one, h]
  rfl

theorem blockEvents_r (hn : n ≤ 3) : (j.blockEvents x i)[1 + n]? = some (.r (x.word i n) (n = 3)) := by
  obtain rfl | rfl | rfl | rfl : n = 0 ∨ n = 1 ∨ n = 2 ∨ n = 3 := by omega
  all_goals rfl

theorem blockEvents_w (hn : n ≤ 3) :
    (j.blockEvents x i)[6 + n]? = some (.w ((j.result x i).extractLsb' (96 - 32 * n) 32) 0xF (n = 3)) := by
  obtain rfl | rfl | rfl | rfl : n = 0 ∨ n = 1 ∨ n = 2 ∨ n = 3 := by omega
  all_goals rfl

end Events

/-! ## What an edge keeps -/

section Edge

variable {j : DmaJob} {x : Feed} {i n : ℕ} {v v' : Block} {st st' : EngineState} {e : DmaEngine} {inp : EngineIn}

theorem writeReg_mode (s : DmaRegs) (offset : BitVec 7) (wdata : Word32) :
    (DmaEngine.writeReg s offset wdata).ctrlMode = s.ctrlMode ∧
      (DmaEngine.writeReg s offset wdata).ctrlEncdec = s.ctrlEncdec := by
  simp only [DmaEngine.writeReg, apply_ite DmaRegs.ctrlMode, apply_ite DmaRegs.ctrlEncdec, ite_self, and_self]

/-- While BUSY, no write reaches the mode. -/
theorem mode_busy (inp : EngineIn) (h : e.fsm.statusBusy = true) :
    (e.step true inp).regs.ctrlMode = e.regs.ctrlMode ∧ (e.step true inp).regs.ctrlEncdec = e.regs.ctrlEncdec := by
  have hstart : e.doStart inp.cpu = false := by simp [DmaEngine.doStart, h]
  simp only [DmaEngine.step, DmaEngine.regsStep, hstart]
  cases DmaEngine.doWrite inp.cpu <;> cases inp.cpu.arvalid <;> simp [writeReg_mode]

theorem nextIv_step (inp : EngineIn) (hch : e.uChain.state = .idle ∨ e.uChain.uCore.done = false)
    (hl : (e.step true inp).fsm.chainLoadIv = false) : (e.step true inp).nextIv = e.nextIv := by
  rw [DmaEngine.nextIv, hl]
  exact ivReg_step hch

theorem InBlock.move (hc : EngineCtl e) (h : InBlock st j i v e) (h1 : st ≠ .idle) (h2 : st ≠ .wrResp)
    (hst : (e.step true inp).fsm.state = st') (hiv : (e.step true inp).nextIv = v') :
    InBlock st' j i v' (e.step true inp) := by
  obtain ⟨f1, f2, f3, -⟩ := fsm_quiet e inp (h.state ▸ h1) (h.state ▸ h2)
  obtain ⟨r1, r2⟩ := mode_busy inp (hc.strobes.busy.2 (h.state ▸ h1))
  exact {
    state := hst
    curSrc := f1.trans h.curSrc
    curDst := f2.trans h.curDst
    blocksLeft := f3.trans h.blocksLeft
    ctrlMode := r1.trans h.ctrlMode
    ctrlEncdec := r2.trans h.ctrlEncdec
    iv := hiv }

/-- An edge at which the chain does not finish. -/
theorem InBlock.next (hc : EngineCtl e) (h : InBlock st j i v e) (h1 : st ≠ .idle) (h2 : st ≠ .wrResp)
    (hch : st ≠ .aesWait ∨ e.uChain.uCore.done = false) (hst : (e.step true inp).fsm.state = st') :
    InBlock st' j i v (e.step true inp) := by
  obtain ⟨-, -, -, hl⟩ := fsm_quiet e inp (h.state ▸ h1) (h.state ▸ h2)
  refine h.move hc h1 h2 hst ((nextIv_step inp (hch.imp_left fun hne => hc.chain_idle (h.state ▸ hne)) hl).trans h.iv)

/-! ## One edge in each phase -/

/-- What the edge with `inp` makes of phase `ph`. -/
def Phase.after (inp : EngineIn) (ph : Phase) : Phase := if ph.goes inp then ph.next else ph

/-- The edge goes from phase `ph` to phase `ph'`, and its handshakes are the block's next ones. -/
def Moves (j : DmaJob) (x : Feed) (i : ℕ) (ph ph' : Phase) (e : DmaEngine) (inp : EngineIn) : Prop :=
  InPhase j x i ph' (e.step true inp) ∧
    (j.blockEvents x i).take ph.past ++ e.busEvents inp = (j.blockEvents x i).take ph'.past

variable (hc : EngineCtl e)
include hc

theorem rdAddr_moves {out : Bool} (hp : Payloads e.fsm) (h : InPhase j x i (.rdAddr out) e) :
    Moves j x i (.rdAddr out) ((Phase.rdAddr out).after inp) e inp := by
  obtain ⟨hb, hout⟩ := h
  have hev := e.busEvents_eq inp hc.strobes
  simp only [hb.state, hout] at hev
  cases out with
  | false =>
    simp only [Phase.after, Phase.goes, if_true, Phase.next]
    refine ⟨⟨hb.next hc (by simp) (by simp) (.inl (by simp)) ?_, ?_⟩, by simp [hev, whenFire, Phase.past]⟩ <;>
      simp [DmaEngine.step, DmaEngine.fsmStep, DmaEngine.fsmCase, hb.state, hout]
  | true =>
    cases hr : inp.ram.arready with
    | false =>
      simp only [Phase.after, Phase.goes, hr, Bool.false_eq_true, if_false]
      refine ⟨⟨hb.next hc (by simp) (by simp) (.inl (by simp)) ?_, ?_⟩, by simp [hev, whenFire, hr]⟩ <;>
        simp [DmaEngine.step, DmaEngine.fsmStep, DmaEngine.fsmCase, hb.state, hout, hr]
    | true =>
      obtain ⟨h1, h2, h3, h4⟩ := hp.ar hout
      simp only [Phase.after, Phase.goes, hr, if_true, Phase.next]
      refine ⟨⟨hb.next hc (by simp) (by simp) (.inl (by simp)) ?_, by omega, _, rfl⟩, ?_⟩
      · simp [DmaEngine.step, DmaEngine.fsmStep, DmaEngine.fsmCase, hb.state, hout, hr]
      · simp [hev, whenFire, hr, h1, h2, h3, h4, hb.curSrc, Phase.past, DmaJob.blockEvents]

theorem rdData_moves (hf : Feeds x i (.rdData n) e inp) (h : InPhase j x i (.rdData n) e) :
    Moves j x i (.rdData n) ((Phase.rdData n).after inp) e inp := by
  obtain ⟨hb, hn, b, hbuf⟩ := h
  have hev := e.busEvents_eq inp hc.strobes
  have hready : e.fsm.mRready = true := hc.strobes.rready.2 hb.state
  simp only [hb.state] at hev
  cases hv : inp.ram.rvalid with
  | false =>
    simp only [Phase.after, Phase.goes, hv, Bool.false_eq_true, if_false]
    refine ⟨⟨hb.next hc (by simp) (by simp) (.inl (by simp)) ?_, hn, b, ?_⟩, by simp [hev, whenFire, hv]⟩ <;>
      simp [DmaEngine.step, DmaEngine.fsmStep, DmaEngine.fsmCase, hb.state, hv, hbuf]
  | true =>
    obtain ⟨hword, hlast⟩ := hf.data n rfl hv
    have hev' : e.busEvents inp = [.r (x.word i n) (n = 3)] := by
      have : inp.ram.rlast = decide (n = 3) := by rw [Bool.eq_iff_iff, hlast, decide_eq_true_iff]
      simp [hev, whenFire, hv, hword, this]
    have hpast := take_succ_of_getElem? (blockEvents_r j x i hn)
    -- RLAST comes with the fourth beat, and it alone ends the phase
    rcases Nat.lt_or_eq_of_le hn with hlt | rfl
    · have hl : inp.ram.rlast = false := by simpa [hlt.ne] using hlast
      simp only [Phase.after, Phase.goes, hv, if_true, Phase.next, hlt]
      refine ⟨⟨hb.next hc (by simp) (by simp) (.inl (by simp)) ?_, hlt, b, ?_⟩, ?_⟩
      · simp [DmaEngine.step, DmaEngine.fsmStep, DmaEngine.fsmCase, hb.state, hv, hready, hl]
      · simp [DmaEngine.step, DmaEngine.fsmStep, DmaEngine.fsmCase, hb.state, hv, hready, hl, hbuf, hword, received]
      · rw [hev', Phase.past, hpast, Phase.past, Nat.add_assoc]
    · have hl : inp.ram.rlast = true := hlast.2 rfl
      simp only [Phase.after, Phase.goes, hv, if_true, Phase.next, Nat.lt_irrefl, if_false]
      refine ⟨⟨hb.next hc (by simp) (by simp) (.inl (by simp)) ?_, ?_⟩, by rw [hev']; exact hpast⟩
      · simp [DmaEngine.step, DmaEngine.fsmStep, DmaEngine.fsmCase, hb.state, hv, hready, hl]
      · rw [← received_four x i b]
        simp [DmaEngine.step, DmaEngine.fsmStep, DmaEngine.fsmCase, hb.state, hv, hready, hl, hbuf, hword, received]

theorem aesGo_moves (hf : Feeds x i .aesGo e inp) (h : InPhase j x i .aesGo e) :
    Moves j x i .aesGo (Phase.aesGo.after inp) e inp := by
  obtain ⟨hb, hbuf⟩ := h
  have hev := e.busEvents_eq inp hc.strobes
  simp only [hb.state] at hev
  have hstart := hc.strobes.start.2 hb.state
  have hl : e.fsm.chainLoadIv = false := by
    cases hl : e.fsm.chainLoadIv with
    | false => rfl
    | true => simpa [hb.state] using (hc.strobes.loadIv hl).1
  have hv : e.uChain.ivReg = j.chainVal x i := by simpa [DmaEngine.nextIv, hl] using hb.iv
  have hch := hc.chain_idle (by simp [hb.state])
  have hasked : Asked j x i e.chainIn := ⟨hf.key rfl, hbuf, hb.ctrlMode, hb.ctrlEncdec⟩
  have hw : Working e.chainIn (j.chainVal x i) 0 (e.step true inp).uChain := by
    rw [← hv]
    exact working_start hc.sync (by simp [AesChain.coreStart, hch, DmaEngine.chainIn, hstart])
  have hst : (e.step true inp).fsm.state = .aesWait := by
    simp [DmaEngine.step, DmaEngine.fsmStep, DmaEngine.fsmCase, hb.state]
  refine ⟨⟨hb.next hc (by simp) (by simp) (.inl (by simp)) hst, by omega, _, hasked, hw⟩, ?_⟩
  rw [hev, List.append_nil]
  rfl

theorem aesWait_moves (h : InPhase j x i (.aesWait n) e) :
    Moves j x i (.aesWait n) ((Phase.aesWait n).after inp) e inp := by
  obtain ⟨hb, hn, q, hq, hw⟩ := h
  have hev := e.busEvents_eq inp hc.strobes
  simp only [hb.state] at hev
  have hst : (e.step true inp).fsm.state = .aesWait ∧ (e.step true inp).fsm.chainLoadIv = false := by
    simp [DmaEngine.step, DmaEngine.fsmStep, DmaEngine.fsmCase, hb.state, hw.doneReg]
  rcases Nat.lt_or_eq_of_le hn with hlt | rfl
  · have hd : e.uChain.uCore.done = false := by simp [hw.core_done]; omega
    simp only [Phase.after, Phase.goes, if_true, Phase.next, hlt]
    exact ⟨⟨hb.next hc (by simp) (by simp) (.inr hd) hst.1, hlt, q, hq, working_step hw hlt⟩, by simp [hev, Phase.past]⟩
  · have hl : e.fsm.chainLoadIv = false := by
      cases hl : e.fsm.chainLoadIv with
      | false => rfl
      | true => simpa [hb.state] using (hc.strobes.loadIv hl).1
    have hv : e.uChain.ivReg = j.chainVal x i := by simpa [DmaEngine.nextIv, hl] using hb.iv
    have ha : Answered q (j.chainVal x i) (e.step true inp).uChain := answered_step hw hv hl
    simp only [Phase.after, Phase.goes, if_true, Phase.next, Nat.lt_irrefl, if_false]
    refine ⟨⟨hb.move hc (by simp) (by simp) hst.1 ?_, q, hq, ha⟩, by simp [hev, Phase.past]⟩
    rw [DmaEngine.nextIv, hst.2]
    exact ha.ivReg.trans (by rw [hq.key, hq.mode, hq.encdec, hq.data]; rfl)

theorem aesDone_moves (h : InPhase j x i .aesDone e) : Moves j x i .aesDone (Phase.aesDone.after inp) e inp := by
  obtain ⟨hb, q, hq, ha⟩ := h
  have hev := e.busEvents_eq inp hc.strobes
  simp only [hb.state] at hev
  have hav : e.fsm.mAwvalid = false := by
    cases hav : e.fsm.mAwvalid with
    | false => rfl
    | true => simpa [hb.state] using hc.strobes.awvalid hav
  have hout : e.uChain.dataOutReg = j.result x i :=
    ha.dataOutReg.trans (by rw [hq.key, hq.mode, hq.encdec, hq.data]; rfl)
  have hf : (e.step true inp).fsm.state = .wrAddr ∧ (e.step true inp).fsm.mAwvalid = false ∧
      (e.step true inp).fsm.wrBlock = e.uChain.dataOutReg := by
    simp [DmaEngine.step, DmaEngine.fsmStep, DmaEngine.fsmCase, hb.state, ha.doneReg, hav]
  have hiv : (e.step true inp).nextIv = e.nextIv := by
    obtain ⟨-, -, -, hl⟩ := fsm_quiet e inp (by simp [hb.state]) (by simp [hb.state])
    exact nextIv_step inp (.inl ha.state) hl
  simp only [Phase.after, Phase.goes, if_true, Phase.next]
  exact ⟨⟨hb.move hc (by simp) (by simp) hf.1 (hiv.trans hb.iv), hf.2.1, hf.2.2.trans hout⟩, by simp [hev, Phase.past]⟩

theorem wrAddr_moves {out : Bool} (hp : Payloads e.fsm) (h : InPhase j x i (.wrAddr out) e) :
    Moves j x i (.wrAddr out) ((Phase.wrAddr out).after inp) e inp := by
  obtain ⟨hb, hout, hbuf⟩ := h
  have hev := e.busEvents_eq inp hc.strobes
  simp only [hb.state, hout] at hev
  cases out with
  | false =>
    simp only [Phase.after, Phase.goes, if_true, Phase.next]
    refine ⟨⟨hb.next hc (by simp) (by simp) (.inl (by simp)) ?_, ?_, ?_⟩, by simp [hev, whenFire, Phase.past]⟩ <;>
      simp [DmaEngine.step, DmaEngine.fsmStep, DmaEngine.fsmCase, hb.state, hout, hbuf]
  | true =>
    cases hr : inp.ram.awready with
    | false =>
      simp only [Phase.after, Phase.goes, hr, Bool.false_eq_true, if_false]
      refine ⟨⟨hb.next hc (by simp) (by simp) (.inl (by simp)) ?_, ?_, ?_⟩, by simp [hev, whenFire, hr]⟩ <;>
        simp [DmaEngine.step, DmaEngine.fsmStep, DmaEngine.fsmCase, hb.state, hout, hr, hbuf]
    | true =>
      obtain ⟨h1, h2, h3, h4⟩ := hp.aw hout
      simp only [Phase.after, Phase.goes, hr, if_true, Phase.next]
      refine ⟨⟨hb.next hc (by simp) (by simp) (.inl (by simp)) ?_, by omega, ?_, ?_⟩, ?_⟩
      · simp [DmaEngine.step, DmaEngine.fsmStep, DmaEngine.fsmCase, hb.state, hout, hr]
      · simp [DmaEngine.step, DmaEngine.fsmStep, DmaEngine.fsmCase, hb.state, hout, hr]
      · simp [DmaEngine.step, DmaEngine.fsmStep, DmaEngine.fsmCase, hb.state, hout, hr, hbuf, drained]
      · rw [hev]
        simp only [whenFire, hr, Bool.and_self, if_true, h1, h2, h3, h4, hb.curDst]
        exact take_succ_of_getElem? (l := j.blockEvents x i) (n := 5) rfl

theorem wrData_moves (h : InPhase j x i (.wrData n) e) :
    Moves j x i (.wrData n) ((Phase.wrData n).after inp) e inp := by
  obtain ⟨hb, hn, hcnt, hbuf⟩ := h
  have hev := e.busEvents_eq inp hc.strobes
  have hv : e.fsm.mWvalid = true := hc.strobes.wvalid.2 hb.state
  have hlast : e.fsm.beatCnt = 3#2 ↔ n = 3 := by
    rw [hcnt, ← BitVec.toNat_inj, BitVec.toNat_ofNat]
    simp; omega
  simp only [hb.state] at hev
  cases hr : inp.ram.wready with
  | false =>
    simp only [Phase.after, Phase.goes, hr, Bool.false_eq_true, if_false]
    refine ⟨⟨hb.next hc (by simp) (by simp) (.inl (by simp)) ?_, hn, ?_, ?_⟩, by simp [hev, whenFire, hr]⟩ <;>
      simp [DmaEngine.step, DmaEngine.fsmStep, DmaEngine.fsmCase, hb.state, hr, hcnt, hbuf]
  | true =>
    have hev' : e.busEvents inp = [.w ((j.result x i).extractLsb' (96 - 32 * n) 32) 0xF (n = 3)] := by
      rw [hev, hbuf, drained_slice (by omega) le_rfl]
      simp [whenFire, hr, hlast]
    have hpast := take_succ_of_getElem? (blockEvents_w j x i hn)
    -- here the engine counts, and WLAST is what its counter says
    rcases Nat.lt_or_eq_of_le hn with hlt | rfl
    · have hne : e.fsm.beatCnt ≠ 3#2 := fun h3 => hlt.ne (hlast.1 h3)
      simp only [Phase.after, Phase.goes, hr, if_true, Phase.next, hlt]
      refine ⟨⟨hb.next hc (by simp) (by simp) (.inl (by simp)) ?_, hlt, ?_, ?_⟩, ?_⟩
      · simp [DmaEngine.step, DmaEngine.fsmStep, DmaEngine.fsmCase, hb.state, hr, hv, hne]
      · rw [BitVec.ofNat_add, ← hcnt]
        simp [DmaEngine.step, DmaEngine.fsmStep, DmaEngine.fsmCase, hb.state, hr, hv, hne]
      · simp [DmaEngine.step, DmaEngine.fsmStep, DmaEngine.fsmCase, hb.state, hr, hv, hne, hbuf, drained]
      · rw [hev', Phase.past, hpast, Phase.past, Nat.add_assoc]
    · have h3 : e.fsm.beatCnt = 3#2 := hlast.2 rfl
      simp only [Phase.after, Phase.goes, hr, if_true, Phase.next, Nat.lt_irrefl, if_false]
      refine ⟨hb.next hc (by simp) (by simp) (.inl (by simp)) ?_, by rw [hev']; exact hpast⟩
      simp [DmaEngine.step, DmaEngine.fsmStep, DmaEngine.fsmCase, hb.state, hr, hv, h3]

/-- One edge inside a block, whatever the phase. -/
theorem inPhase_moves {ph : Phase} (hp : Payloads e.fsm) (hf : Feeds x i ph e inp) (hne : ph ≠ .wrResp)
    (h : InPhase j x i ph e) : Moves j x i ph (ph.after inp) e inp := by
  cases ph with
  | rdAddr out => exact rdAddr_moves hc hp h
  | rdData n => exact rdData_moves hc hf h
  | aesGo => exact aesGo_moves hc hf h
  | aesWait n => exact aesWait_moves hc h
  | aesDone => exact aesDone_moves hc h
  | wrAddr out => exact wrAddr_moves hc hp h
  | wrData n => exact wrData_moves hc h
  | wrResp => exact absurd rfl hne

/-! ## From block to block -/

omit hc in
theorem blocksLeft_eq_one (hi : i < j.blocks) : j.len - BitVec.ofNat 32 i = 1#32 ↔ i + 1 = j.blocks := by
  have hlt := j.len.isLt
  have hzero : j.len = 0 ↔ j.len.toNat = 0 := by rw [← BitVec.toNat_inj]; rfl
  rw [← BitVec.toNat_inj, BitVec.toNat_sub, BitVec.toNat_ofNat]
  by_cases hz : j.len.toNat = 0
  -- LEN = 0 counts through the whole range
  · simp only [DmaJob.blocks, hzero, hz, if_true] at hi ⊢
    simp
    omega
  · simp only [DmaJob.blocks, hzero, hz, if_false] at hi ⊢
    simp
    omega

theorem wrResp_waits (h : InPhase j x i .wrResp e) (hb : inp.ram.bvalid = false) :
    InPhase j x i .wrResp (e.step true inp) ∧ e.busEvents inp = [] := by
  have hev := e.busEvents_eq inp hc.strobes
  simp only [h.state] at hev
  have hf : (e.step true inp).fsm = { e.fsm with irqPulse := false, chainLoadIv := false, chainStart := false } := by
    simp [DmaEngine.step, DmaEngine.fsmStep, DmaEngine.fsmCase, h.state, hb]
  obtain ⟨r1, r2⟩ := mode_busy inp (hc.strobes.busy.2 (by simp [h.state]))
  have hiv := nextIv_step inp (.inl (hc.chain_idle (by simp [h.state]))) (by rw [hf])
  refine ⟨?_, by simp [hev, whenFire, hb]⟩
  exact {
    state := by rw [hf]; exact h.state
    curSrc := by rw [hf]; exact h.curSrc
    curDst := by rw [hf]; exact h.curDst
    blocksLeft := by rw [hf]; exact h.blocksLeft
    ctrlMode := r1.trans h.ctrlMode
    ctrlEncdec := r2.trans h.ctrlEncdec
    iv := hiv.trans h.iv }

theorem wrResp_b (h : InPhase j x i .wrResp e) (hb : inp.ram.bvalid = true) :
    (j.blockEvents x i).take Phase.wrResp.past ++ e.busEvents inp = j.blockEvents x i := by
  have hev := e.busEvents_eq inp hc.strobes
  simp only [h.state] at hev
  simp [hev, whenFire, hb, Phase.past, DmaJob.blockEvents, List.range_succ]

theorem wrResp_nextBlock (hi : i + 1 < j.blocks) (h : InPhase j x i .wrResp e) (hb : inp.ram.bvalid = true) :
    InPhase j x (i + 1) (.rdAddr false) (e.step true inp) := by
  have hne : e.fsm.blocksLeft ≠ 1#32 := by
    rw [h.blocksLeft, Ne, blocksLeft_eq_one (by omega)]
    omega
  -- the phase of the next address begins without ARVALID
  have hav : e.fsm.mArvalid = false := by
    cases hav : e.fsm.mArvalid with
    | false => rfl
    | true => simpa [h.state] using hc.strobes.arvalid hav
  have hf : (e.step true inp).fsm =
      { e.fsm with
        irqPulse := false, chainLoadIv := false, chainStart := false, mBready := false, curSrc := e.fsm.curSrc + 16
        curDst := e.fsm.curDst + 16, blocksLeft := e.fsm.blocksLeft - 1, state := .rdAddr } := by
    simp [DmaEngine.step, DmaEngine.fsmStep, DmaEngine.fsmCase, h.state, hb, hne]
  obtain ⟨r1, r2⟩ := mode_busy inp (hc.strobes.busy.2 (by simp [h.state]))
  have hiv := nextIv_step inp (.inl (hc.chain_idle (by simp [h.state]))) (by rw [hf])
  have hadd (a : Word32) : a + BitVec.ofNat 32 (16 * i) + 16 = a + BitVec.ofNat 32 (16 * (i + 1)) :=
    Counters.add_ofNat_mul_succ a 16 i
  exact ⟨{
    state := by rw [hf]
    curSrc := by rw [hf, ← hadd, ← h.curSrc]
    curDst := by rw [hf, ← hadd, ← h.curDst]
    blocksLeft := by rw [hf, BitVec.ofNat_add, ← BitVec.sub_sub, ← h.blocksLeft]; rfl
    ctrlMode := r1.trans h.ctrlMode
    ctrlEncdec := r2.trans h.ctrlEncdec
    iv := hiv.trans h.iv }, by rw [hf]; exact hav⟩

omit hc in
theorem wrResp_last (hi : i + 1 = j.blocks) (h : InPhase j x i .wrResp e) (hb : inp.ram.bvalid = true) :
    (e.step true inp).fsm.state = .done := by
  have h1 : e.fsm.blocksLeft = 1#32 := by
    rw [h.blocksLeft, blocksLeft_eq_one (by omega), hi]
  simp [DmaEngine.step, DmaEngine.fsmStep, DmaEngine.fsmCase, h.state, hb, h1]

/-- An accepted START begins with block 0. -/
theorem engine_start (h : e.doStart inp.cpu = true) :
    InPhase (e.job inp.cpu) x 0 (.rdAddr false) (e.step true inp) := by
  obtain ⟨-, hav, hf⟩ := start_fsm hc h
  obtain ⟨-, r2, r3, r4⟩ := start_regs h
  refine ⟨⟨by rw [hf], ?_, ?_, ?_, r3, r4, ?_⟩, by rw [hf]; exact hav⟩
  · simp [hf, DmaEngine.job]
  · simp [hf, DmaEngine.job]
  · simp [hf, DmaEngine.job]
  · rw [DmaEngine.nextIv, hf]
    exact r2

end Edge

end RiscvSoc.Dma
