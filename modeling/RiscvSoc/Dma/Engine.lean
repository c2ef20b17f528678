import RiscvSoc.Aes.Chain
import RiscvSoc.Dma.Ram
/-!
# `dma_engine.v`

Two always blocks: the engine's state machine (`DmaFsm`) and the registers the
CPU sees (`DmaRegs`), around one `aes_chain`. `status_done` is set by the first
block and cleared by the second; when both do so on one edge the language leaves
open which comes last, so the inputs say it.
-/

namespace RiscvSoc.Dma

open Aes

inductive EngineState
  | idle
  | rdAddr
  | rdData
  | aesGo
  | aesWait
  | wrAddr
  | wrData
  | wrResp
  | done
  deriving DecidableEq, Repr

structure DmaFsm where
  state : EngineState
  statusBusy : Bool
  irqPulse : Bool
  chainLoadIv : Bool
  chainStart : Bool
  curSrc : Word32
  curDst : Word32
  blocksLeft : Word32
  beatCnt : BitVec 2
  rdBlock : Block
  wrBlock : Block
  mAwvalid : Bool
  mAwaddr : Word32
  mAwlen : BitVec 8
  mAwsize : BitVec 3
  mAwburst : BitVec 2
  mWvalid : Bool
  mBready : Bool
  mArvalid : Bool
  mAraddr : Word32
  mArlen : BitVec 8
  mArsize : BitVec 3
  mArburst : BitVec 2
  mRready : Bool

structure DmaRegs where
  srcAddrReg : Word32
  dstAddrReg : Word32
  lenReg : Word32
  keyReg : Block
  ivReg : Block
  statusDone : Bool
  ctrlMode : BitVec 2
  ctrlEncdec : Bool
  sBvalid : Bool
  sBresp : Resp
  sRvalid : Bool
  sRdata : Word32
  sRresp : Resp

structure DmaEngine where
  fsm : DmaFsm
  regs : DmaRegs
  uChain : AesChain

structure EngineIn where
  cpu : LiteReq
  ram : BurstRsp
  /-- `status_done` ends up set when one edge both sets and clears it. -/
  doneWins : Bool

def regCtrl : BitVec 7 := 0x00
def regStatus : BitVec 7 := 0x04
def regSrcAddr : BitVec 7 := 0x08
def regDstAddr : BitVec 7 := 0x0C
def regLen : BitVec 7 := 0x10
def regKey0 : BitVec 7 := 0x14
def regKey1 : BitVec 7 := 0x18
def regKey2 : BitVec 7 := 0x1C
def regKey3 : BitVec 7 := 0x20
def regIv0 : BitVec 7 := 0x24
def regIv1 : BitVec 7 := 0x28
def regIv2 : BitVec 7 := 0x2C
def regIv3 : BitVec 7 := 0x30

namespace DmaEngine

def awOffset (i : LiteReq) : BitVec 7 := i.awaddr.extractLsb' 0 7
def arOffset (i : LiteReq) : BitVec 7 := i.araddr.extractLsb' 0 7
def doWrite (i : LiteReq) : Bool := i.awvalid && i.wvalid

def doStart (s : DmaEngine) (i : LiteReq) : Bool :=
  doWrite i && awOffset i = regCtrl && i.wdata.getLsbD 0 && !s.fsm.statusBusy

/-- The CPU port. -/
def rsp (s : DmaEngine) : LiteRsp where
  awready := true
  wready := true
  bvalid := s.regs.sBvalid
  bresp := s.regs.sBresp
  arready := true
  rvalid := s.regs.sRvalid
  rdata := s.regs.sRdata
  rresp := s.regs.sRresp

/-- The burst port; `m_wdata`, `m_wstrb` and `m_wlast` are combinational. -/
def burst (s : DmaFsm) : BurstReq where
  awvalid := s.mAwvalid
  awaddr := s.mAwaddr
  awlen := s.mAwlen
  awsize := s.mAwsize
  awburst := s.mAwburst
  wvalid := s.mWvalid
  wdata := s.wrBlock.extractLsb' 96 32
  wstrb := 0xF
  wlast := s.beatCnt = 3
  bready := s.mBready
  arvalid := s.mArvalid
  araddr := s.mAraddr
  arlen := s.mArlen
  arsize := s.mArsize
  arburst := s.mArburst
  rready := s.mRready

/-- The ports of `u_chain`. -/
def chainIn (s : DmaEngine) : ChainIn where
  loadIv := s.fsm.chainLoadIv
  ivIn := s.regs.ivReg
  start := s.fsm.chainStart
  encdec := s.regs.ctrlEncdec
  mode := s.regs.ctrlMode
  keyIn := s.regs.keyReg
  dataIn := s.fsm.rdBlock

/-- `{block[95:0], word}`. -/
def shiftIn (block : Block) (word : Word32) : Block := block.extractLsb' 0 96 ++ word

/-- The edge of the state machine, after `irq_pulse`, `chain_load_iv` and
`chain_start` have been given their default 0. -/
def fsmCase (e : DmaEngine) (i : EngineIn) (s : DmaFsm) : DmaFsm :=
  match s.state with
  | .idle =>
    if e.doStart i.cpu then
      { s with
        curSrc := e.regs.srcAddrReg, curDst := e.regs.dstAddrReg, blocksLeft := e.regs.lenReg
        statusBusy := true, chainLoadIv := true, state := .rdAddr }
    else s
  | .rdAddr =>
    let s' := { s with mAraddr := s.curSrc, mArlen := 3, mArsize := axi4Size4B, mArburst := axi4BurstIncr }
    if s.mArvalid && i.ram.arready then
      { s' with mArvalid := false, mRready := true, beatCnt := 0, state := .rdData }
    else { s' with mArvalid := true }
  | .rdData =>
    if i.ram.rvalid && s.mRready then
      -- the first beat ends up in the top word; only RLAST ends the burst
      let s' := { s with rdBlock := shiftIn s.rdBlock i.ram.rdata }
      if i.ram.rlast then { s' with mRready := false, chainStart := true, state := .aesGo } else s'
    else s
  -- the cycle of `chain_start`
  | .aesGo => { s with state := .aesWait }
  | .aesWait =>
    if e.uChain.doneReg then { s with wrBlock := e.uChain.dataOutReg, state := .wrAddr } else s
  | .wrAddr =>
    let s' := { s with mAwaddr := s.curDst, mAwlen := 3, mAwsize := axi4Size4B, mAwburst := axi4BurstIncr }
    if s.mAwvalid && i.ram.awready then
      { s' with mAwvalid := false, mWvalid := true, beatCnt := 0, state := .wrData }
    else { s' with mAwvalid := true }
  | .wrData =>
    if s.mWvalid && i.ram.wready then
      let s' := { s with wrBlock := shiftIn s.wrBlock 0 }
      if s.beatCnt = 3 then { s' with mWvalid := false, mBready := true, state := .wrResp }
      else { s' with beatCnt := s.beatCnt + 1 }
    else s
  | .wrResp =>
    if i.ram.bvalid then
      -- tested after the work of the block, so it is not 0 that ends the loop
      if s.blocksLeft = 1 then { s with mBready := false, state := .done }
      else
        { s with
          mBready := false, curSrc := s.curSrc + 16, curDst := s.curDst + 16, blocksLeft := s.blocksLeft - 1
          state := .rdAddr }
    else s
  | .done => { s with statusBusy := false, irqPulse := true, state := .idle }

def fsmStep (resetn : Bool) (e : DmaEngine) (i : EngineIn) : DmaFsm :=
  if !resetn then
    { e.fsm with
      state := .idle, statusBusy := false, irqPulse := false, chainLoadIv := false, chainStart := false
      mAwvalid := false, mWvalid := false, mBready := false, mArvalid := false, mRready := false }
  else e.fsmCase i { e.fsm with irqPulse := false, chainLoadIv := false, chainStart := false }

/-- The `case` over the offset of a write. -/
def writeReg (s : DmaRegs) (offset : BitVec 7) (wdata : Word32) : DmaRegs :=
  if offset = regSrcAddr then { s with srcAddrReg := wdata }
  else if offset = regDstAddr then { s with dstAddrReg := wdata }
  else if offset = regLen then { s with lenReg := wdata }
  else if offset = regKey0 then { s with keyReg := Bytes.setWord s.keyReg 3 wdata }
  else if offset = regKey1 then { s with keyReg := Bytes.setWord s.keyReg 2 wdata }
  else if offset = regKey2 then { s with keyReg := Bytes.setWord s.keyReg 1 wdata }
  else if offset = regKey3 then { s with keyReg := Bytes.setWord s.keyReg 0 wdata }
  else if offset = regIv0 then { s with ivReg := Bytes.setWord s.ivReg 3 wdata }
  else if offset = regIv1 then { s with ivReg := Bytes.setWord s.ivReg 2 wdata }
  else if offset = regIv2 then { s with ivReg := Bytes.setWord s.ivReg 1 wdata }
  else if offset = regIv3 then { s with ivReg := Bytes.setWord s.ivReg 0 wdata }
  else s

/-- The `case` over the offset of a read; the key is write-only. -/
def readReg (e : DmaEngine) (offset : BitVec 7) : Word32 :=
  let s := e.regs
  if offset = regCtrl then 0#28 ++ s.ctrlMode ++ BitVec.ofBool s.ctrlEncdec ++ 0#1
  else if offset = regStatus then 0#30 ++ BitVec.ofBool s.statusDone ++ BitVec.ofBool e.fsm.statusBusy
  else if offset = regSrcAddr then s.srcAddrReg
  else if offset = regDstAddr then s.dstAddrReg
  else if offset = regLen then s.lenReg
  else if offset = regIv0 then s.ivReg.extractLsb' 96 32
  else if offset = regIv1 then s.ivReg.extractLsb' 64 32
  else if offset = regIv2 then s.ivReg.extractLsb' 32 32
  else if offset = regIv3 then s.ivReg.extractLsb' 0 32
  else 0

def clearsDone (i : LiteReq) : Bool := doWrite i && awOffset i = regStatus && i.wdata.getLsbD 1

/-- `status_done` after an edge without reset, from both always blocks. -/
def statusDoneNext (e : DmaEngine) (i : EngineIn) : Bool :=
  if e.fsm.state = .done then !clearsDone i.cpu || i.doneWins
  else e.regs.statusDone && !clearsDone i.cpu

def regsStep (resetn : Bool) (e : DmaEngine) (i : EngineIn) : DmaRegs :=
  let s := e.regs
  if !resetn then
    { s with
      srcAddrReg := 0, dstAddrReg := 0, lenReg := 0, keyReg := 0, ivReg := 0
      statusDone := false, ctrlMode := 0, ctrlEncdec := false }
  else
    -- no write is held back while BUSY but that of START
    let s := { s with statusDone := e.statusDoneNext i }
    let s := if e.doStart i.cpu then
        { s with ctrlEncdec := i.cpu.wdata.getLsbD 1, ctrlMode := i.cpu.wdata.extractLsb' 2 2 }
      else s
    let s := if doWrite i.cpu then
        { writeReg s (awOffset i.cpu) i.cpu.wdata with sBresp := axiRespOkay, sBvalid := true }
      else { s with sBvalid := false }
    if i.cpu.arvalid then
      { s with sRdata := e.readReg (arOffset i.cpu), sRresp := axiRespOkay, sRvalid := true }
    else { s with sRvalid := false }

def step (resetn : Bool) (e : DmaEngine) (i : EngineIn) : DmaEngine where
  fsm := e.fsmStep resetn i
  regs := e.regsStep resetn i
  uChain := e.uChain.step resetn e.chainIn

end DmaEngine

/-! ## The engine and its memory -/

structure DmaSys (k : ℕ) where
  engine : DmaEngine
  ram : DmaRam k

structure DmaIn where
  cpu : LiteReq
  doneWins : Bool

namespace DmaSys

variable {k : ℕ}

def step (resetn : Bool) (s : DmaSys k) (i : DmaIn) : DmaSys k where
  engine := s.engine.step resetn ⟨i.cpu, s.ram.rsp, i.doneWins⟩
  ram := s.ram.step resetn (DmaEngine.burst s.engine.fsm)

def irq (s : DmaSys k) : Bool := s.engine.fsm.irqPulse

end DmaSys

end RiscvSoc.Dma
