import RiscvSoc.Slaves.Port
/-!
# `timer.v` and `watchdog.v`
-/

namespace RiscvSoc

structure Timer where
  ctrlEn : Bool
  reloadReg : Word32
  count : Word32
  statusExpired : Bool
  irqPulse : Bool
  port : LitePort

namespace Timer

def regCtrl : BitVec 4 := 0x0
def regReload : BitVec 4 := 0x4
def regCount : BitVec 4 := 0x8
def regStatus : BitVec 4 := 0xC

def writeCtrlEn (i : LiteReq) : Bool := i.writes regCtrl && i.wdata.getLsbD 0

/-- The counter expires on this edge. -/
def expires (s : Timer) (i : LiteReq) : Bool := s.ctrlEn && s.count = 0 && !writeCtrlEn i

/-- The `case` over the offset of a read. -/
def readReg (s : Timer) (offset : BitVec 4) : Word32 :=
  if offset = regCtrl then 0#31 ++ BitVec.ofBool s.ctrlEn
  else if offset = regReload then s.reloadReg
  else if offset = regCount then s.count
  else if offset = regStatus then 0#31 ++ BitVec.ofBool s.statusExpired
  else 0

def step (resetn : Bool) (s : Timer) (i : LiteReq) : Timer :=
  if !resetn then
    { s with ctrlEn := false, reloadReg := 0xFFFFFFFF, count := 0xFFFFFFFF, statusExpired := false, irqPulse := false }
  else
    { ctrlEn := if i.writes regCtrl then i.wdata.getLsbD 0 else s.ctrlEn
      reloadReg := if i.writes regReload then i.wdata else s.reloadReg
      count :=
        if writeCtrlEn i then s.reloadReg
        else if s.ctrlEn && s.count = 0 then s.reloadReg
        else if s.ctrlEn then s.count - 1
        else s.count
      -- set and cleared on one edge, it is set
      statusExpired :=
        if s.expires i then true
        else if i.writes regStatus && i.wdata.getLsbD 0 then false
        else s.statusExpired
      irqPulse := s.expires i
      port := s.port.answer i axiRespOkay (s.readReg (i.araddr.extractLsb' 0 4)) }

def slave : PulseSlave where
  State := Timer
  Env := Unit
  rsp s := s.port.rsp
  step resetn s _ i := s.step resetn i
  ready _ := ⟨rfl, rfl, rfl⟩
  bvalid_step _ _ _ := rfl
  rvalid_step _ _ _ := rfl

end Timer

structure Watchdog where
  ctrlEn : Bool
  timeoutReg : Word32
  count : Word32
  statusWarning : Bool
  statusResetReq : Bool
  irqPulse : Bool
  port : LitePort

namespace Watchdog

def regCtrl : BitVec 4 := 0x0
def regTimeout : BitVec 4 := 0x4
def regKick : BitVec 4 := 0x8
def regStatus : BitVec 4 := 0xC

def restart (i : LiteReq) : Bool := (i.writes regCtrl && i.wdata.getLsbD 0) || i.writes regKick

def readReg (s : Watchdog) (offset : BitVec 4) : Word32 :=
  if offset = regCtrl then 0#31 ++ BitVec.ofBool s.ctrlEn
  else if offset = regTimeout then s.timeoutReg
  else if offset = regStatus then 0#30 ++ BitVec.ofBool s.statusResetReq ++ BitVec.ofBool s.statusWarning
  else 0

/-- An edge, with `WARN_MARGIN = warnMargin`. -/
def step (warnMargin : ℕ) (resetn : Bool) (s : Watchdog) (i : LiteReq) : Watchdog :=
  if !resetn then
    { s with
      ctrlEn := false, timeoutReg := 0xFFFFFFFF, count := 0xFFFFFFFF, statusWarning := false, statusResetReq := false
      irqPulse := false }
  else
    { ctrlEn := if i.writes regCtrl then i.wdata.getLsbD 0 else s.ctrlEn
      timeoutReg := if i.writes regTimeout then i.wdata else s.timeoutReg
      count :=
        if restart i then s.timeoutReg
        -- it stays at 0 until it is kicked
        else if s.ctrlEn && s.count ≠ 0 then s.count - 1
        else s.count
      statusWarning :=
        if restart i then false
        else if s.ctrlEn && s.count.toNat = warnMargin then true
        else if i.writes regStatus && i.wdata.getLsbD 0 then false
        else s.statusWarning
      irqPulse := !restart i && s.ctrlEn && s.count.toNat = warnMargin
      statusResetReq :=
        if restart i then false
        else if s.ctrlEn && s.count = 0 then true
        else s.statusResetReq
      port := s.port.answer i axiRespOkay (s.readReg (i.araddr.extractLsb' 0 4)) }

def slave (warnMargin : ℕ) : PulseSlave where
  State := Watchdog
  Env := Unit
  rsp s := s.port.rsp
  step resetn s _ i := s.step warnMargin resetn i
  ready _ := ⟨rfl, rfl, rfl⟩
  bvalid_step _ _ _ := rfl
  rvalid_step _ _ _ := rfl

end Watchdog

end RiscvSoc
