import RiscvSoc.Slaves.Port
/-!
# `uart.v`
-/

namespace RiscvSoc

inductive TxState
  | idle
  | start
  | data
  | stop
  deriving DecidableEq, Repr

structure Uart where
  txState : TxState
  bitIdx : BitVec 3
  txShift : BitVec 8
  clkCnt : BitVec 8
  doStartTx : Bool
  startByte : BitVec 8
  tx : Bool
  port : LitePort

namespace Uart

def regTxdata : BitVec 4 := 0x0
def regStatus : BitVec 4 := 0x4

def txBusy (s : Uart) : Bool := s.txState ≠ .idle

/-- `clk_cnt == CLKS_PER_BIT - 1`. The 8 bits of the counter are extended to the width of
the parameter, where a parameter of 0 gives what no counter reaches. -/
def bitDone (clksPerBit : ℕ) (s : Uart) : Bool := s.clkCnt.toNat + 1 = clksPerBit

/-- The transmitter, on the registers before the edge. -/
def txStep (clksPerBit : ℕ) (s : Uart) : Uart :=
  match s.txState with
  | .idle =>
    if s.doStartTx then { s with tx := true, txShift := s.startByte, txState := .start, clkCnt := 0 }
    else { s with tx := true }
  | .start =>
    if s.bitDone clksPerBit then { s with tx := false, clkCnt := 0, bitIdx := 0, txState := .data }
    else { s with tx := false, clkCnt := s.clkCnt + 1 }
  | .data =>
    let s' := { s with tx := s.txShift.getLsbD s.bitIdx.toNat }
    if s.bitDone clksPerBit then
      if s.bitIdx = 7 then { s' with clkCnt := 0, txState := .stop }
      else { s' with clkCnt := 0, bitIdx := s.bitIdx + 1 }
    else { s' with clkCnt := s.clkCnt + 1 }
  | .stop =>
    if s.bitDone clksPerBit then { s with tx := true, clkCnt := 0, txState := .idle }
    else { s with tx := true, clkCnt := s.clkCnt + 1 }

/-- A byte is accepted: the transmitter is idle. -/
def takesByte (s : Uart) (i : LiteReq) : Bool := i.writes regTxdata && !s.txBusy

def readReg (s : Uart) (offset : BitVec 4) : Word32 :=
  if offset = regStatus then 0#31 ++ BitVec.ofBool s.txBusy else 0

def step (clksPerBit : ℕ) (resetn : Bool) (s : Uart) (i : LiteReq) : Uart :=
  if !resetn then
    { s with
      txState := .idle, tx := true, clkCnt := 0, bitIdx := 0, doStartTx := false, port := s.port.clear }
  else
    { s.txStep clksPerBit with
      doStartTx := s.takesByte i
      startByte := if s.takesByte i then i.wdata.extractLsb' 0 8 else s.startByte
      port := s.port.answer i axiRespOkay (s.readReg (i.araddr.extractLsb' 0 4)) }

def slave (clksPerBit : ℕ) : PulseSlave where
  State := Uart
  Env := Unit
  rsp s := s.port.rsp
  step resetn s _ i := s.step clksPerBit resetn i
  ready _ := ⟨rfl, rfl, rfl⟩
  bvalid_step _ _ _ := rfl
  rvalid_step _ _ _ := rfl

end Uart

end RiscvSoc
