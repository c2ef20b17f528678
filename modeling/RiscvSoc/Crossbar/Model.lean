import RiscvSoc.Axi
/-!
# `axi_lite_xbar.v`

Two masters, nine slaves. The write path and the read path have registers of
their own and share only the diagnostic CSR, which the read path answers from.
-/

namespace RiscvSoc.Crossbar

/-- `s0` is the CPU, `s1` the JTAG bridge. -/
inductive Master
  | s0
  | s1
  deriving DecidableEq, Repr

/-- The real slaves of `addr_map.vh`. -/
inductive Slave
  | rom
  | ram
  | timer
  | wdt
  | uart
  | i2c
  | spi
  | aes
  | dma
  deriving DecidableEq, Repr

/-- The slave indices, the two the crossbar answers itself included. -/
inductive Sel
  | dev (p : Slave)
  | xbarCsr
  | err
  deriving DecidableEq, Repr

def addrRegionRom : BitVec 4 := 0x0
def addrRegionRam : BitVec 4 := 0x1
def addrRegionPeriph : BitVec 4 := 0x4

def addrPeriphTimer : BitVec 4 := 0x0
def addrPeriphWdt : BitVec 4 := 0x1
def addrPeriphUart : BitVec 4 := 0x2
def addrPeriphI2c : BitVec 4 := 0x3
def addrPeriphSpi : BitVec 4 := 0x4
def addrPeriphAes : BitVec 4 := 0x5
def addrPeriphDma : BitVec 4 := 0x6
def addrPeriphXbarCsr : BitVec 4 := 0x7

def decodeAddr (addr : Word32) : Sel :=
  let region := addr.extractLsb' 28 4
  let periph := addr.extractLsb' 12 4
  if region = addrRegionRom then .dev .rom
  else if region = addrRegionRam then .dev .ram
  else if region = addrRegionPeriph ∧ periph = addrPeriphTimer then .dev .timer
  else if region = addrRegionPeriph ∧ periph = addrPeriphWdt then .dev .wdt
  else if region = addrRegionPeriph ∧ periph = addrPeriphUart then .dev .uart
  else if region = addrRegionPeriph ∧ periph = addrPeriphI2c then .dev .i2c
  else if region = addrRegionPeriph ∧ periph = addrPeriphSpi then .dev .spi
  else if region = addrRegionPeriph ∧ periph = addrPeriphAes then .dev .aes
  else if region = addrRegionPeriph ∧ periph = addrPeriphDma then .dev .dma
  else if region = addrRegionPeriph ∧ periph = addrPeriphXbarCsr then .xbarCsr
  else .err

/-- The four states of either path: `W_WAIT_B` and `R_WAIT_R` are `wait`. -/
inductive PathState
  | idle
  | issue
  | wait
  | resp
  deriving DecidableEq, Repr

structure WritePath where
  wState : PathState
  wSel : Sel
  wAddrLat : Word32
  wDataLat : Word32
  wStrbLat : BitVec 4
  wHaveAw : Bool
  wHaveW : Bool
  wIssuedAw : Bool
  wIssuedW : Bool
  sBvalid : Bool
  sBresp : Resp
  wGrant : Bool
  lastDecerrWaddr : Word32
  decerrIrqW : Bool

structure ReadPath where
  rState : PathState
  rSel : Sel
  rAddrLat : Word32
  rIssuedAr : Bool
  sRvalid : Bool
  sRdata : Word32
  sRresp : Resp
  rGrant : Bool
  lastDecerrRaddr : Word32
  decerrIrqR : Bool

structure AxiLiteXbar where
  w : WritePath
  r : ReadPath

/-- What the crossbar sees: its masters' requests and its slaves' responses. -/
structure XbarIn where
  up : Master → LiteReq
  down : Slave → LiteRsp

/-- The master a grant bit stands for. -/
def granted (grant : Bool) : Master := if grant then .s0 else .s1

namespace WritePath

variable (s : WritePath) (i : XbarIn)

def wOpen : Bool := s.wState = .idle && !s.wHaveAw && !s.wHaveW

def wArbS0 : Bool :=
  ((i.up .s0).awvalid || (i.up .s0).wvalid) || !((i.up .s1).awvalid || (i.up .s1).wvalid)

def wGrantEff : Bool := if s.wOpen then wArbS0 i else s.wGrant

/-- The `cur_aw*` and `cur_w*` wires. -/
def cur : LiteReq := i.up (granted (s.wGrantEff i))

def curBready : Bool := (i.up (granted s.wGrant)).bready

def curAwready : Bool := s.wState = .idle && !s.wHaveAw
def curWready : Bool := s.wState = .idle && !s.wHaveW

def awFire : Bool := (s.cur i).awvalid && s.curAwready
def wFire : Bool := (s.cur i).wvalid && s.curWready
def awReadyC : Bool := s.wHaveAw || s.awFire i
def wReadyC : Bool := s.wHaveW || s.wFire i

/-- The response wires of the selected slave; with no slave behind it every
handshake succeeds. -/
def slaveAwready : Bool := match s.wSel with | .dev p => (i.down p).awready | _ => true
def slaveWready : Bool := match s.wSel with | .dev p => (i.down p).wready | _ => true
def slaveBvalid : Bool := match s.wSel with | .dev p => (i.down p).bvalid | _ => true
def slaveBresp : Resp := match s.wSel with | .dev p => (i.down p).bresp | _ => axiRespSlverr

/-- `w_sel` is one of the two targets without a slave. -/
def noSlave : Bool := s.wSel = .err || s.wSel = .xbarCsr

def idleStep : WritePath :=
  let a := (s.cur i).awaddr
  -- AW and W come in any order; the first waits in the latches
  let s' := if s.awFire i then
      { s with
        wAddrLat := a, wSel := decodeAddr a
        lastDecerrWaddr := if decodeAddr a = .err then a else s.lastDecerrWaddr }
    else s
  let s' := if s.wFire i then { s' with wDataLat := (s.cur i).wdata, wStrbLat := (s.cur i).wstrb } else s'
  if s.awReadyC i && s.wReadyC i then
    { s' with wState := .issue, wHaveAw := false, wHaveW := false, wIssuedAw := false, wIssuedW := false }
  else { s' with wHaveAw := s.awReadyC i, wHaveW := s.wReadyC i }

def issueStep : WritePath :=
  if s.noSlave then { s with wState := .resp }
  else
    -- either channel is done once its own READY has been seen
    { s with
      wIssuedAw := s.wIssuedAw || s.slaveAwready i
      wIssuedW := s.wIssuedW || s.slaveWready i
      wState :=
        if (s.wIssuedAw || s.slaveAwready i) && (s.wIssuedW || s.slaveWready i) then .wait else s.wState }

def waitStep : WritePath :=
  if s.slaveBvalid i then { s with sBresp := s.slaveBresp i, wState := .resp } else s

def respStep : WritePath :=
  -- the code of a target without a slave is loaded with BVALID
  let bresp :=
    if s.wSel = .err && !s.sBvalid then axiRespDecerr
    else if s.wSel = .xbarCsr && !s.sBvalid then axiRespSlverr
    else s.sBresp
  if s.sBvalid && s.curBready i then { s with sBresp := bresp, sBvalid := false, wState := .idle }
  else { s with sBresp := bresp, sBvalid := true }

def step (resetn : Bool) : WritePath :=
  if !resetn then
    { s with
      wState := .idle, wHaveAw := false, wHaveW := false, sBvalid := false, wGrant := true
      lastDecerrWaddr := 0, decerrIrqW := false }
  else
    let t := match s.wState with
      | .idle => s.idleStep i
      | .issue => s.issueStep i
      | .wait => s.waitStep i
      | .resp => s.respStep i
    { t with
      wGrant := if s.wOpen then wArbS0 i else s.wGrant
      -- 0 by default, set with `last_decerr_waddr`
      decerrIrqW := s.wState = .idle && s.awFire i && decodeAddr (s.cur i).awaddr = .err }

end WritePath

namespace ReadPath

variable (s : ReadPath) (i : XbarIn)

def rOpen : Bool := s.rState = .idle

def rArbS0 : Bool := (i.up .s0).arvalid || !(i.up .s1).arvalid

def rGrantEff : Bool := if s.rOpen then rArbS0 i else s.rGrant

/-- The `cur_ar*` wires. -/
def cur : LiteReq := i.up (granted (s.rGrantEff i))

def curRready : Bool := (i.up (granted s.rGrant)).rready

def slaveArready : Bool := match s.rSel with | .dev p => (i.down p).arready | _ => true
def slaveRvalid : Bool := match s.rSel with | .dev p => (i.down p).rvalid | _ => true
def slaveRdata : Word32 := match s.rSel with | .dev p => (i.down p).rdata | _ => 0
def slaveRresp : Resp := match s.rSel with | .dev p => (i.down p).rresp | _ => axiRespSlverr

def noSlave : Bool := s.rSel = .err || s.rSel = .xbarCsr

def idleStep : ReadPath :=
  let a := (s.cur i).araddr
  if (s.cur i).arvalid then
    { s with
      rAddrLat := a, rSel := decodeAddr a, rIssuedAr := false, rState := .issue
      lastDecerrRaddr := if decodeAddr a = .err then a else s.lastDecerrRaddr }
  else s

def issueStep : ReadPath :=
  if s.noSlave then { s with rState := .resp }
  else
    { s with
      rIssuedAr := s.rIssuedAr || s.slaveArready i
      rState := if s.rIssuedAr || s.slaveArready i then .wait else s.rState }

def waitStep : ReadPath :=
  if s.slaveRvalid i then { s with sRdata := s.slaveRdata i, sRresp := s.slaveRresp i, rState := .resp } else s

/-- The diagnostic CSR word that `addr` selects. -/
def diagCsr (lastDecerrWaddr : Word32) (addr : Word32) : Word32 :=
  if addr.getLsbD 2 then s.lastDecerrRaddr else lastDecerrWaddr

def respStep (lastDecerrWaddr : Word32) : ReadPath :=
  -- a read that no slave answers is loaded with RVALID, the CSR word of that edge
  let s' :=
    if s.rSel = .err && !s.sRvalid then { s with sRdata := 0, sRresp := axiRespDecerr }
    else if s.rSel = .xbarCsr && !s.sRvalid then
      { s with sRdata := s.diagCsr lastDecerrWaddr s.rAddrLat, sRresp := axiRespOkay }
    else s
  if s.sRvalid && s.curRready i then { s' with sRvalid := false, rState := .idle }
  else { s' with sRvalid := true }

def step (resetn : Bool) (lastDecerrWaddr : Word32) : ReadPath :=
  if !resetn then
    { s with rState := .idle, sRvalid := false, rGrant := true, lastDecerrRaddr := 0, decerrIrqR := false }
  else
    let t := match s.rState with
      | .idle => s.idleStep i
      | .issue => s.issueStep i
      | .wait => s.waitStep i
      | .resp => s.respStep i lastDecerrWaddr
    { t with
      rGrant := if s.rOpen then rArbS0 i else s.rGrant
      decerrIrqR := s.rState = .idle && (s.cur i).arvalid && decodeAddr (s.cur i).araddr = .err }

end ReadPath

namespace AxiLiteXbar

variable (s : AxiLiteXbar) (i : XbarIn)

/-- What master `m` sees. -/
def rsp (m : Master) : LiteRsp where
  awready := granted (s.w.wGrantEff i) = m && s.w.curAwready
  wready := granted (s.w.wGrantEff i) = m && s.w.curWready
  bvalid := granted s.w.wGrant = m && s.w.sBvalid
  bresp := s.w.sBresp
  arready := granted (s.r.rGrantEff i) = m && s.r.rState = .idle
  rvalid := granted s.r.rGrant = m && s.r.sRvalid
  rdata := s.r.sRdata
  rresp := s.r.sRresp

/-- What slave `p` sees. -/
def req (p : Slave) : LiteReq where
  awvalid := s.w.wState = .issue && s.w.wSel = .dev p && !s.w.wIssuedAw
  awaddr := s.w.wAddrLat
  wvalid := s.w.wState = .issue && s.w.wSel = .dev p && !s.w.wIssuedW
  wdata := s.w.wDataLat
  wstrb := s.w.wStrbLat
  bready := s.w.wState = .wait && s.w.wSel = .dev p
  arvalid := s.r.rState = .issue && s.r.rSel = .dev p && !s.r.rIssuedAr
  araddr := s.r.rAddrLat
  rready := s.r.rState = .wait && s.r.rSel = .dev p

def decerrIrq : Bool := s.w.decerrIrqW || s.r.decerrIrqR

def step (resetn : Bool) (s : AxiLiteXbar) (i : XbarIn) : AxiLiteXbar where
  w := s.w.step i resetn
  r := s.r.step i resetn s.w.lastDecerrWaddr

end AxiLiteXbar

end RiscvSoc.Crossbar
