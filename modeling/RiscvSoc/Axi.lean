import Mathlib.Data.BitVec
/-!
# `axi_lite.vh` and `axi4.vh`

The bundles of signals of the two buses: what a master drives and what a slave
drives. The source has no bundles; a port `m_awaddr` is the field `awaddr` of
the bundle of that port.
-/

namespace RiscvSoc

abbrev Word32 := BitVec 32
abbrev Resp := BitVec 2

def axiRespOkay : Resp := 0b00
def axiRespSlverr : Resp := 0b10
def axiRespDecerr : Resp := 0b11

/-! ## AXI4-Lite -/

/-- What an AXI4-Lite master drives. -/
structure LiteReq where
  awvalid : Bool
  awaddr : Word32
  wvalid : Bool
  wdata : Word32
  wstrb : BitVec 4
  bready : Bool
  arvalid : Bool
  araddr : Word32
  rready : Bool
  deriving DecidableEq, Repr

/-- What an AXI4-Lite slave drives. -/
structure LiteRsp where
  awready : Bool
  wready : Bool
  bvalid : Bool
  bresp : Resp
  arready : Bool
  rvalid : Bool
  rdata : Word32
  rresp : Resp
  deriving DecidableEq, Repr

/-- `[x]` if the handshake takes place. -/
def whenFire {α : Type*} (valid ready : Bool) (x : α) : List α := if valid && ready then [x] else []

theorem mem_whenFire {α : Type*} {valid ready : Bool} {x y : α} :
    y ∈ whenFire valid ready x ↔ (valid = true ∧ ready = true) ∧ y = x := by
  cases valid <;> cases ready <;> simp [whenFire]

/-! ## AXI4, as the DMA uses it -/

def axi4Size4B : BitVec 3 := 0b010
def axi4BurstIncr : BitVec 2 := 0b01

/-- What an AXI4 master drives. -/
structure BurstReq where
  awvalid : Bool
  awaddr : Word32
  awlen : BitVec 8
  awsize : BitVec 3
  awburst : BitVec 2
  wvalid : Bool
  wdata : Word32
  wstrb : BitVec 4
  wlast : Bool
  bready : Bool
  arvalid : Bool
  araddr : Word32
  arlen : BitVec 8
  arsize : BitVec 3
  arburst : BitVec 2
  rready : Bool

/-- What an AXI4 slave drives. -/
structure BurstRsp where
  awready : Bool
  wready : Bool
  bvalid : Bool
  bresp : Resp
  arready : Bool
  rvalid : Bool
  rdata : Word32
  rresp : Resp
  rlast : Bool

end RiscvSoc
