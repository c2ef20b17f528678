import RiscvSoc.Axi
/-!
# The register port of the peripherals

Every peripheral is always ready and answers in the next cycle, for one cycle,
whatever `s_bready` and `s_rready` are. The five registers of that port are the
same in each; the `case` statements that fill them are the peripheral's own.
-/

namespace RiscvSoc

namespace LiteReq

variable (i : LiteReq)

/-- `do_write`. -/
def doWrite : Bool := i.awvalid && i.wvalid

/-- A write to the register at `offset`, an offset of `k` bits. -/
def writes {k : ℕ} (offset : BitVec k) : Bool := i.doWrite && i.awaddr.extractLsb' 0 k = offset

def noReq : LiteReq := ⟨false, 0, false, 0, 0, true, false, 0, true⟩

/-- A write of `v` to the register at `offset`. -/
def writeReg {k : ℕ} (offset : BitVec k) (v : Word32) : LiteReq :=
  ⟨true, offset.setWidth 32, true, v, 0xF, true, false, 0, true⟩

end LiteReq

/-- `s_bvalid`, `s_bresp`, `s_rvalid`, `s_rdata` and `s_rresp`. -/
structure LitePort where
  sBvalid : Bool
  sBresp : Resp
  sRvalid : Bool
  sRdata : Word32
  sRresp : Resp
  deriving DecidableEq, Repr

namespace LitePort

def rsp (s : LitePort) : LiteRsp where
  awready := true
  wready := true
  bvalid := s.sBvalid
  bresp := s.sBresp
  arready := true
  rvalid := s.sRvalid
  rdata := s.sRdata
  rresp := s.sRresp

/-- An edge without reset: a write is answered with `bresp`, a read with `rdata`. -/
def answer (s : LitePort) (i : LiteReq) (bresp : Resp) (rdata : Word32) : LitePort where
  sBvalid := i.doWrite
  sBresp := if i.doWrite then bresp else s.sBresp
  sRvalid := i.arvalid
  sRdata := if i.arvalid then rdata else s.sRdata
  sRresp := if i.arvalid then axiRespOkay else s.sRresp

/-- A reset that takes the two `valid` registers down. -/
def clear (s : LitePort) : LitePort := { s with sBvalid := false, sRvalid := false }

end LitePort

/-- A slave that answers with pulses: always ready, and after an edge without
reset it shows a response exactly if that edge had a request. `Env` is what its
other pins bring in. -/
structure PulseSlave where
  State : Type
  Env : Type
  rsp : State → LiteRsp
  step : Bool → State → Env → LiteReq → State
  ready : ∀ s, (rsp s).awready = true ∧ (rsp s).wready = true ∧ (rsp s).arready = true
  bvalid_step : ∀ s e i, (rsp (step true s e i)).bvalid = (i.awvalid && i.wvalid)
  rvalid_step : ∀ s e i, (rsp (step true s e i)).rvalid = i.arvalid

end RiscvSoc
