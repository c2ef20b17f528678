import RiscvSoc.Slaves.Port
/-!
# `i2c_master.v`

`sda` is open drain with a pull-up: it is low if the master or another device
pulls it low.
-/

namespace RiscvSoc

inductive I2cState
  | idle
  | start
  | addr
  | addrAck
  | wdata
  | wdataAck
  | rdata
  | rdataAck
  | stop
  deriving DecidableEq, Repr

structure I2cMaster where
  state : I2cState
  dividerReg : Word32
  divCnt : Word32
  phase : Bool
  bitIdx : BitVec 3
  addrRw : BitVec 8
  txShift : BitVec 8
  rxShift : BitVec 8
  rxdataReg : BitVec 8
  addrReg : BitVec 7
  txdataReg : BitVec 8
  rwR : Bool
  sdaDriveLow : Bool
  scl : Bool
  busy : Bool
  done : Bool
  nack : Bool
  irqPulse : Bool
  port : LitePort

namespace I2cMaster

def regCtrl : BitVec 5 := 0x00
def regAddr : BitVec 5 := 0x04
def regTxdata : BitVec 5 := 0x08
def regRxdata : BitVec 5 := 0x0C
def regStatus : BitVec 5 := 0x10
def regDivider : BitVec 5 := 0x14

variable (s : I2cMaster) (i : LiteReq)

def doStart : Bool := i.writes regCtrl && i.wdata.getLsbD 0 && !s.busy

def tick : Bool := s.divCnt = s.dividerReg - 1

/-- The level of the line. -/
def sda (pulled : Bool) : Bool := !(s.sdaDriveLow || pulled)

/-- The first half of a bit: SCL low, SDA pulled low or released. -/
def lowPhase (driveLow : Bool) (t : I2cMaster) : I2cMaster :=
  { t with sdaDriveLow := driveLow, scl := false, phase := true }

/-- The second half of a bit: SCL high. -/
def highPhase (t : I2cMaster) : I2cMaster := { t with scl := true, phase := false }

/-- A tick of the divider in each state, on registers `t` whose `div_cnt` is 0. -/
def tickStep (pulled : Bool) (t : I2cMaster) : I2cMaster :=
  match s.state with
  | .idle => t
  | .start =>
    if s.phase = false then { t with sdaDriveLow := true, phase := true }
    else { t with scl := false, bitIdx := 7, phase := false, state := .addr }
  | .addr =>
    if s.phase = false then lowPhase (!s.addrRw.getLsbD s.bitIdx.toNat) t
    else if s.bitIdx = 0 then { highPhase t with state := .addrAck }
    else { highPhase t with bitIdx := s.bitIdx - 1 }
  | .addrAck =>
    if s.phase = false then lowPhase false t
    else if s.sda pulled then { highPhase t with nack := true, state := .stop }
    else if s.rwR then { highPhase t with bitIdx := 7, state := .rdata }
    else { highPhase t with bitIdx := 7, state := .wdata }
  | .wdata =>
    if s.phase = false then lowPhase (!s.txShift.getLsbD s.bitIdx.toNat) t
    else if s.bitIdx = 0 then { highPhase t with state := .wdataAck }
    else { highPhase t with bitIdx := s.bitIdx - 1 }
  | .wdataAck =>
    if s.phase = false then lowPhase false t
    else if s.sda pulled then { highPhase t with nack := true, state := .stop }
    else { highPhase t with state := .stop }
  | .rdata =>
    if s.phase = false then lowPhase false t
    else
      let t := { highPhase t with rxShift := s.rxShift.extractLsb' 0 7 ++ BitVec.ofBool (s.sda pulled) }
      if s.bitIdx = 0 then { t with state := .rdataAck } else { t with bitIdx := s.bitIdx - 1 }
  | .rdataAck =>
    if s.phase = false then lowPhase false t
    else { highPhase t with rxdataReg := s.rxShift, state := .stop }
  | .stop =>
    -- SDA low, then SCL high, then SDA high
    if s.phase = false then lowPhase true t
    else if s.scl = false then { t with scl := true }
    else { t with sdaDriveLow := false, busy := false, done := true, irqPulse := true, state := .idle }

/-- The state machine, on registers `t` that hold what precedes the `case`. -/
def fsm (pulled : Bool) (t : I2cMaster) : I2cMaster :=
  if s.state = .idle then
    -- both lines are released
    let t := { t with scl := true, sdaDriveLow := false }
    if s.doStart i then
      { t with
        rwR := i.wdata.getLsbD 1, addrRw := s.addrReg ++ BitVec.ofBool (i.wdata.getLsbD 1)
        txShift := s.txdataReg, busy := true, done := false, nack := false, divCnt := 0, phase := false
        state := .start }
    else t
  else if s.tick then s.tickStep pulled { t with divCnt := 0 }
  else { t with divCnt := s.divCnt + 1 }

def readReg (offset : BitVec 5) : Word32 :=
  if offset = regCtrl then 0#30 ++ BitVec.ofBool s.rwR ++ 0#1
  else if offset = regAddr then 0#25 ++ s.addrReg
  else if offset = regTxdata then 0#24 ++ s.txdataReg
  else if offset = regRxdata then 0#24 ++ s.rxdataReg
  else if offset = regStatus then
    0#29 ++ BitVec.ofBool s.nack ++ BitVec.ofBool s.done ++ BitVec.ofBool s.busy
  else if offset = regDivider then s.dividerReg
  else 0

def step (resetn : Bool) (pulled : Bool) : I2cMaster :=
  if !resetn then
    { s with
      state := .idle, scl := true, sdaDriveLow := false, busy := false, done := false, nack := false
      irqPulse := false, dividerReg := 4, addrReg := 0, txdataReg := 0 }
  else
    let t := s.fsm i pulled
      { s with
        irqPulse := false
        done := if i.writes regStatus && i.wdata.getLsbD 1 then false else s.done
        nack := if i.writes regStatus && i.wdata.getLsbD 2 then false else s.nack }
    { t with
      -- a divider of 0 is stored as 1
      dividerReg := if i.writes regDivider then (if i.wdata = 0 then 1 else i.wdata) else s.dividerReg
      addrReg := if i.writes regAddr then i.wdata.extractLsb' 0 7 else s.addrReg
      txdataReg := if i.writes regTxdata then i.wdata.extractLsb' 0 8 else s.txdataReg
      port := s.port.answer i axiRespOkay (s.readReg (i.araddr.extractLsb' 0 5)) }

/-- Its pin is SDA, as the other devices pull it. -/
def slave : PulseSlave where
  State := I2cMaster
  Env := Bool
  rsp s := s.port.rsp
  step resetn s pulled i := s.step i resetn pulled
  ready _ := ⟨rfl, rfl, rfl⟩
  bvalid_step _ _ _ := rfl
  rvalid_step _ _ _ := rfl

end I2cMaster

end RiscvSoc
