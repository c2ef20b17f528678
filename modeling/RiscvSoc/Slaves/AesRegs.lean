import RiscvSoc.Aes.Chain
import RiscvSoc.Lib.Bytes
import RiscvSoc.Slaves.Port
/-!
# `aes.v`

The registers in front of one `aes_chain`. `START` and `LOAD_IV` reach the chain
in the cycle of the write, with the mode and direction of that write.
-/

namespace RiscvSoc.Aes

structure AesRegs where
  keyReg : Block
  dataReg : Block
  ivReg : Block
  encdecReg : Bool
  modeReg : BitVec 2
  statusDone : Bool
  irqPulse : Bool
  port : LitePort
  uChain : AesChain

namespace AesRegs

def regCtrl : BitVec 7 := 0x00
def regStatus : BitVec 7 := 0x04
def regKey0 : BitVec 7 := 0x10
def regKey1 : BitVec 7 := 0x14
def regKey2 : BitVec 7 := 0x18
def regKey3 : BitVec 7 := 0x1C
def regData0 : BitVec 7 := 0x20
def regData1 : BitVec 7 := 0x24
def regData2 : BitVec 7 := 0x28
def regData3 : BitVec 7 := 0x2C
def regResult0 : BitVec 7 := 0x30
def regResult1 : BitVec 7 := 0x34
def regResult2 : BitVec 7 := 0x38
def regResult3 : BitVec 7 := 0x3C
def regIv0 : BitVec 7 := 0x40
def regIv1 : BitVec 7 := 0x44
def regIv2 : BitVec 7 := 0x48
def regIv3 : BitVec 7 := 0x4C

variable (s : AesRegs) (i : LiteReq)

def doStart : Bool := i.writes regCtrl && i.wdata.getLsbD 0 && !s.uChain.busy

def doLoadIv : Bool := i.writes regCtrl && i.wdata.getLsbD 4 && !s.uChain.busy

/-- The ports of `u_chain`. -/
def chainIn : ChainIn where
  loadIv := s.doLoadIv i
  ivIn := s.ivReg
  start := s.doStart i
  encdec := i.wdata.getLsbD 1
  mode := i.wdata.extractLsb' 2 2
  keyIn := s.keyReg
  dataIn := s.dataReg

/-- The `case` over the offset of a write, on registers `t`. -/
def writeReg (t : AesRegs) (offset : BitVec 7) (wdata : Word32) : AesRegs :=
  if offset = regKey0 then { t with keyReg := Bytes.setWord t.keyReg 3 wdata }
  else if offset = regKey1 then { t with keyReg := Bytes.setWord t.keyReg 2 wdata }
  else if offset = regKey2 then { t with keyReg := Bytes.setWord t.keyReg 1 wdata }
  else if offset = regKey3 then { t with keyReg := Bytes.setWord t.keyReg 0 wdata }
  else if offset = regData0 then { t with dataReg := Bytes.setWord t.dataReg 3 wdata }
  else if offset = regData1 then { t with dataReg := Bytes.setWord t.dataReg 2 wdata }
  else if offset = regData2 then { t with dataReg := Bytes.setWord t.dataReg 1 wdata }
  else if offset = regData3 then { t with dataReg := Bytes.setWord t.dataReg 0 wdata }
  else if offset = regIv0 then { t with ivReg := Bytes.setWord t.ivReg 3 wdata }
  else if offset = regIv1 then { t with ivReg := Bytes.setWord t.ivReg 2 wdata }
  else if offset = regIv2 then { t with ivReg := Bytes.setWord t.ivReg 1 wdata }
  else if offset = regIv3 then { t with ivReg := Bytes.setWord t.ivReg 0 wdata }
  else t

/-- The `case` over the offset of a read; the key is write-only. -/
def readReg (offset : BitVec 7) : Word32 :=
  let out := s.uChain.dataOutReg
  if offset = regCtrl then 0#28 ++ s.modeReg ++ BitVec.ofBool s.encdecReg ++ 0#1
  else if offset = regStatus then 0#30 ++ BitVec.ofBool s.statusDone ++ BitVec.ofBool s.uChain.busy
  else if offset = regResult0 then out.extractLsb' 96 32
  else if offset = regResult1 then out.extractLsb' 64 32
  else if offset = regResult2 then out.extractLsb' 32 32
  else if offset = regResult3 then out.extractLsb' 0 32
  else if offset = regData0 then s.dataReg.extractLsb' 96 32
  else if offset = regData1 then s.dataReg.extractLsb' 64 32
  else if offset = regData2 then s.dataReg.extractLsb' 32 32
  else if offset = regData3 then s.dataReg.extractLsb' 0 32
  else if offset = regIv0 then s.ivReg.extractLsb' 96 32
  else if offset = regIv1 then s.ivReg.extractLsb' 64 32
  else if offset = regIv2 then s.ivReg.extractLsb' 32 32
  else if offset = regIv3 then s.ivReg.extractLsb' 0 32
  else 0

def step (resetn : Bool) : AesRegs :=
  let chain := s.uChain.step resetn (s.chainIn i)
  if !resetn then
    { s with
      keyReg := 0, dataReg := 0, ivReg := 0, statusDone := false, irqPulse := false, encdecReg := false, modeReg := 0
      uChain := chain }
  else
    -- `iv_reg` follows the chain on `core_done`; a word written on the same edge wins
    let t := if s.uChain.doneReg then { s with ivReg := s.uChain.ivReg } else s
    let t := if i.doWrite then t.writeReg (i.awaddr.extractLsb' 0 7) i.wdata else t
    { t with
      irqPulse := s.uChain.doneReg
      statusDone :=
        if i.writes regStatus && i.wdata.getLsbD 1 then false else s.uChain.doneReg || s.statusDone
      encdecReg := if s.doStart i then i.wdata.getLsbD 1 else s.encdecReg
      modeReg := if s.doStart i then i.wdata.extractLsb' 2 2 else s.modeReg
      port := s.port.answer i axiRespOkay (s.readReg (i.araddr.extractLsb' 0 7))
      uChain := chain }

def slave : PulseSlave where
  State := AesRegs
  Env := Unit
  rsp s := s.port.rsp
  step resetn s _ i := s.step i resetn
  ready _ := ⟨rfl, rfl, rfl⟩
  bvalid_step _ _ _ := rfl
  rvalid_step _ _ _ := rfl

end AesRegs

end RiscvSoc.Aes
