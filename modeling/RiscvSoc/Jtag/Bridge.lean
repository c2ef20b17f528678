import RiscvSoc.Jtag.Dtm
/-!
# `jtag_axi_bridge.v`

Its flops on `tck` and its flops on `clk`. An instant of a run has an edge of
either clock, or of both; every flop samples what was there before it.
-/

namespace RiscvSoc.Jtag

structure BridgeTck where
  startToggleTck : Bool
  doneToggleSync1 : Bool
  doneToggleSync2 : Bool
  respOkSync1 : Bool
  respOkSync2 : Bool
  rdataSync1 : Word32
  rdataSync2 : Word32

inductive BridgeState
  | idle
  | wrGo
  | wrB
  | rdGo
  | rdR
  deriving DecidableEq, Repr

structure BridgeClk where
  startToggleSync1 : Bool
  startToggleSync2 : Bool
  startToggleSync2D : Bool
  state : BridgeState
  addrReg : Word32
  wdataReg : Word32
  rdataReg : Word32
  awDone : Bool
  wDone : Bool
  respOk : Bool
  doneToggleClk : Bool

namespace BridgeTck

variable (s : BridgeTck)

def busyTck : Bool := s.startToggleTck != s.doneToggleSync2

def step (resetn : Bool) (startPulseTck : Bool) (c : BridgeClk) : BridgeTck :=
  if !resetn then
    { s with
      startToggleTck := false, doneToggleSync1 := false, doneToggleSync2 := false
      respOkSync1 := false, respOkSync2 := false }
  else
    { startToggleTck := if startPulseTck then !s.startToggleTck else s.startToggleTck
      doneToggleSync1 := c.doneToggleClk
      doneToggleSync2 := s.doneToggleSync1
      respOkSync1 := c.respOk
      respOkSync2 := s.respOkSync1
      rdataSync1 := c.rdataReg
      rdataSync2 := s.rdataSync1 }

end BridgeTck

namespace BridgeClk

variable (s : BridgeClk)

def startPulseClk : Bool := s.startToggleSync2 ^^ s.startToggleSync2D

/-- The AXI4-Lite master port. -/
def req : LiteReq where
  awvalid := s.state = .wrGo && !s.awDone
  awaddr := s.addrReg
  wvalid := s.state = .wrGo && !s.wDone
  wdata := s.wdataReg
  wstrb := 0xF
  bready := s.state = .wrB
  arvalid := s.state = .rdGo
  araddr := s.addrReg
  rready := s.state = .rdR

/-- The state machine; the `tck` side's registers are read unsynchronised. -/
def fsm (d : JtagDtm) (i : LiteRsp) : BridgeClk :=
  match s.state with
  | .idle =>
    if s.startPulseClk then
      -- the host may have changed them since its START
      { s with
        addrReg := d.addrReg, wdataReg := d.dataReg, awDone := false, wDone := false
        state := if d.rwTck then .rdGo else .wrGo }
    else s
  | .wrGo =>
    { s with
      awDone := s.awDone || i.awready
      wDone := s.wDone || i.wready
      state := if (s.awDone || i.awready) && (s.wDone || i.wready) then .wrB else .wrGo }
  | .wrB =>
    if i.bvalid then
      { s with respOk := i.bresp = axiRespOkay, doneToggleClk := !s.doneToggleClk, state := .idle }
    else s
  | .rdGo => if i.arready then { s with state := .rdR } else s
  | .rdR =>
    if i.rvalid then
      { s with
        rdataReg := i.rdata, respOk := i.rresp = axiRespOkay, doneToggleClk := !s.doneToggleClk, state := .idle }
    else s

def step (resetn : Bool) (startToggleTck : Bool) (d : JtagDtm) (i : LiteRsp) : BridgeClk :=
  if !resetn then
    { s with
      startToggleSync1 := false, startToggleSync2 := false, startToggleSync2D := false
      state := .idle, doneToggleClk := false }
  else
    { s.fsm d i with
      startToggleSync1 := startToggleTck
      startToggleSync2 := s.startToggleSync1
      startToggleSync2D := s.startToggleSync2 }

end BridgeClk

/-! ## The chain -/

structure TckIn where
  resetn : Bool
  tms : Bool
  tdi : Bool

structure ClkIn where
  resetn : Bool
  rsp : LiteRsp

/-- The edges of one instant. -/
structure Edge where
  tck : Option TckIn
  clk : Option ClkIn

structure JtagChain where
  dtm : JtagDtm
  tckSide : BridgeTck
  clkSide : BridgeClk

namespace JtagChain

variable (s : JtagChain)

def dtmIn (i : TckIn) : DtmIn where
  tms := i.tms
  tdi := i.tdi
  busy := s.tckSide.busyTck
  respOk := s.tckSide.respOkSync2
  rdata := s.tckSide.rdataSync2

def tckStep (i : TckIn) : JtagDtm × BridgeTck :=
  (s.dtm.step (s.dtmIn i) i.resetn, s.tckSide.step i.resetn s.dtm.startPulseTck s.clkSide)

def clkStep (i : ClkIn) : BridgeClk := s.clkSide.step i.resetn s.tckSide.startToggleTck s.dtm i.rsp

def step (e : Edge) : JtagChain where
  dtm := match e.tck with | some i => (s.tckStep i).1 | none => s.dtm
  tckSide := match e.tck with | some i => (s.tckStep i).2 | none => s.tckSide
  clkSide := match e.clk with | some i => s.clkStep i | none => s.clkSide

end JtagChain

end RiscvSoc.Jtag
