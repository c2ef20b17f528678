import RiscvSoc.Axi
/-!
# `jtag_tap.v` and `jtag_dtm.v`

Both are clocked by `tck`. An edge acts on the state the TAP is in before it.
-/

namespace RiscvSoc.Jtag

inductive TapState
  | testLogicReset
  | runTestIdle
  | selectDrScan
  | captureDr
  | shiftDr
  | exit1Dr
  | pauseDr
  | exit2Dr
  | updateDr
  | selectIrScan
  | captureIr
  | shiftIr
  | exit1Ir
  | pauseIr
  | exit2Ir
  | updateIr
  deriving DecidableEq, Repr

def nextState (cur : TapState) (tms : Bool) : TapState :=
  match cur with
  | .testLogicReset => if tms then .testLogicReset else .runTestIdle
  | .runTestIdle => if tms then .selectDrScan else .runTestIdle
  | .selectDrScan => if tms then .selectIrScan else .captureDr
  | .captureDr => if tms then .exit1Dr else .shiftDr
  | .shiftDr => if tms then .exit1Dr else .shiftDr
  | .exit1Dr => if tms then .updateDr else .pauseDr
  | .pauseDr => if tms then .exit2Dr else .pauseDr
  | .exit2Dr => if tms then .updateDr else .shiftDr
  | .updateDr => if tms then .selectDrScan else .runTestIdle
  | .selectIrScan => if tms then .testLogicReset else .captureIr
  | .captureIr => if tms then .exit1Ir else .shiftIr
  | .shiftIr => if tms then .exit1Ir else .shiftIr
  | .exit1Ir => if tms then .updateIr else .pauseIr
  | .pauseIr => if tms then .exit2Ir else .pauseIr
  | .exit2Ir => if tms then .updateIr else .shiftIr
  | .updateIr => if tms then .selectDrScan else .runTestIdle

def irIdcode : BitVec 4 := 0x1
def irAxiAddr : BitVec 4 := 0x2
def irAxiData : BitVec 4 := 0x3
def irAxiCtrl : BitVec 4 := 0x4
def irBypass : BitVec 4 := 0xF

/-- `{4'h1, 16'hC0DE, 11'h051, 1'b1}`. -/
def idcodeValue : Word32 := 0x1#4 ++ 0xC0DE#16 ++ 0x051#11 ++ 1#1

/-- `{tdi, dr_shift[31:1]}`. -/
def shiftIn (v : Word32) (tdi : Bool) : Word32 := BitVec.ofBool tdi ++ v.extractLsb' 1 31

structure JtagDtm where
  tap : TapState
  irShift : BitVec 4
  irReg : BitVec 4
  drShift : Word32
  bypassReg : Bool
  addrReg : Word32
  dataReg : Word32
  bridgeBusyPrev : Bool
  startPulseTck : Bool
  rwTck : Bool

/-- The pins, and what comes from the bridge. -/
structure DtmIn where
  tms : Bool
  tdi : Bool
  busy : Bool
  respOk : Bool
  rdata : Word32

namespace JtagDtm

variable (s : JtagDtm) (i : DtmIn)

def tdo : Bool := if s.irReg = irBypass then s.bypassReg else s.drShift.getLsbD 0

/-- What `dr_shift` is loaded with in Capture-DR; the other codes leave it. -/
def captured : Word32 :=
  if s.irReg = irIdcode then idcodeValue
  else if s.irReg = irAxiAddr then s.addrReg
  else if s.irReg = irAxiData then s.dataReg
  else if s.irReg = irAxiCtrl then 0#30 ++ BitVec.ofBool i.respOk ++ BitVec.ofBool i.busy
  else s.drShift

/-- The instructions with a data register of 32 bits. -/
def isReg (ir : BitVec 4) : Bool := ir = irIdcode || ir = irAxiAddr || ir = irAxiData || ir = irAxiCtrl

/-- An edge outside reset and Test-Logic-Reset, after `bridge_busy_prev` and the
default of `start_pulse_tck`; `data_reg` takes the result on the falling edge of
BUSY, unless an update writes it. -/
def regsStep : JtagDtm :=
  let t :=
    { s with
      startPulseTck := false, bridgeBusyPrev := i.busy
      dataReg := if s.bridgeBusyPrev && !i.busy && s.rwTck then i.rdata else s.dataReg }
  match s.tap with
  | .shiftIr => { t with irShift := BitVec.ofBool i.tdi ++ s.irShift.extractLsb' 1 3 }
  | .captureIr => { t with irShift := 0b0101 }
  | .updateIr => { t with irReg := s.irShift }
  | .captureDr => { t with drShift := s.captured i, bypassReg := if isReg s.irReg then s.bypassReg else false }
  | .shiftDr =>
    if s.irReg = irBypass then { t with bypassReg := i.tdi } else { t with drShift := shiftIn s.drShift i.tdi }
  | .updateDr =>
    if s.irReg = irAxiAddr then { t with addrReg := s.drShift }
    else if s.irReg = irAxiData then { t with dataReg := s.drShift }
    else if s.irReg = irAxiCtrl then
      { t with rwTck := s.drShift.getLsbD 1, startPulseTck := s.drShift.getLsbD 0 }
    else t
  | _ => t

def step (resetn : Bool) : JtagDtm :=
  let t :=
    -- `addr_reg`, `data_reg` and `rw_tck` keep what they hold
    if !resetn || s.tap = .testLogicReset then
      { s with irReg := irIdcode, startPulseTck := false, bridgeBusyPrev := false }
    else s.regsStep i
  { t with tap := if !resetn then .testLogicReset else nextState s.tap i.tms }

end JtagDtm

end RiscvSoc.Jtag
