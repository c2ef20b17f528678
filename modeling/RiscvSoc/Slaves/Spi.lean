import RiscvSoc.Slaves.Port
/-!
# `spi_master.v`
-/

namespace RiscvSoc

inductive SpiState
  | idle
  | run
  deriving DecidableEq, Repr

structure SpiMaster where
  state : SpiState
  cpolR : Bool
  cphaR : Bool
  dividerReg : Word32
  divCnt : Word32
  edgeCnt : BitVec 5
  txShift : BitVec 7
  rxShift : BitVec 8
  rxdataReg : BitVec 8
  txdataReg : BitVec 8
  busy : Bool
  done : Bool
  irqPulse : Bool
  sclk : Bool
  mosi : Bool
  csN : Bool
  port : LitePort

namespace SpiMaster

def regCtrl : BitVec 5 := 0x00
def regDivider : BitVec 5 := 0x04
def regTxdata : BitVec 5 := 0x08
def regRxdata : BitVec 5 := 0x0C
def regStatus : BitVec 5 := 0x10

variable (s : SpiMaster) (i : LiteReq)

def isLeadingEdge : Bool := !s.edgeCnt.getLsbD 0

def isSampleEdge : Bool := if s.cphaR then !s.isLeadingEdge else s.isLeadingEdge

/-- With `CPHA = 1` the first leading edge does not shift. -/
def isShiftEdge : Bool := if s.cphaR then s.isLeadingEdge && s.edgeCnt ≠ 0 else !s.isLeadingEdge

def doStart : Bool := i.writes regCtrl && i.wdata.getLsbD 0 && !s.busy

/-- The state machine; `irq_pulse` and `done` come with what precedes the `case`. -/
def fsm (miso : Bool) (t : SpiMaster) : SpiMaster :=
  match s.state with
  | .idle =>
    if s.doStart i then
      { t with
        cpolR := i.wdata.getLsbD 1, cphaR := i.wdata.getLsbD 2
        txShift := s.txdataReg.extractLsb' 0 7, mosi := s.txdataReg.getLsbD 7
        csN := false, sclk := i.wdata.getLsbD 1, edgeCnt := 0, divCnt := 0
        busy := true, done := false, state := .run }
    else { t with csN := true }
  | .run =>
    if s.divCnt = s.dividerReg - 1 then
      -- sixteen edges of SCLK, and one more period
      if s.edgeCnt = 16 then
        { t with
          divCnt := 0, csN := true, busy := false, done := true, irqPulse := true, rxdataReg := s.rxShift
          state := .idle }
      else
        { t with
          divCnt := 0, sclk := !s.sclk
          rxShift := if s.isSampleEdge then s.rxShift.extractLsb' 0 7 ++ BitVec.ofBool miso else s.rxShift
          txShift := if s.isShiftEdge then s.txShift.extractLsb' 0 6 ++ 0#1 else s.txShift
          mosi := if s.isShiftEdge then s.txShift.getLsbD 6 else s.mosi
          edgeCnt := s.edgeCnt + 1 }
    else { t with divCnt := s.divCnt + 1 }

def readReg (offset : BitVec 5) : Word32 :=
  if offset = regCtrl then 0#29 ++ BitVec.ofBool s.cphaR ++ BitVec.ofBool s.cpolR ++ 0#1
  else if offset = regDivider then s.dividerReg
  else if offset = regTxdata then 0#24 ++ s.txdataReg
  else if offset = regRxdata then 0#24 ++ s.rxdataReg
  else if offset = regStatus then 0#30 ++ BitVec.ofBool s.done ++ BitVec.ofBool s.busy
  else 0

def step (resetn : Bool) (miso : Bool) : SpiMaster :=
  if !resetn then
    { s with
      state := .idle, sclk := false, csN := true, busy := false, done := false, irqPulse := false
      dividerReg := 2, txdataReg := 0 }
  else
    let t := s.fsm i miso
      { s with irqPulse := false, done := if i.writes regStatus && i.wdata.getLsbD 1 then false else s.done }
    { t with
      -- a divider of 0 is stored as 1
      dividerReg := if i.writes regDivider then (if i.wdata = 0 then 1 else i.wdata) else s.dividerReg
      txdataReg := if i.writes regTxdata then i.wdata.extractLsb' 0 8 else s.txdataReg
      port := s.port.answer i axiRespOkay (s.readReg (i.araddr.extractLsb' 0 5)) }

/-- Its pin is `miso`. -/
def slave : PulseSlave where
  State := SpiMaster
  Env := Bool
  rsp s := s.port.rsp
  step resetn s miso i := s.step i resetn miso
  ready _ := ⟨rfl, rfl, rfl⟩
  bvalid_step _ _ _ := rfl
  rvalid_step _ _ _ := rfl

end SpiMaster

end RiscvSoc
