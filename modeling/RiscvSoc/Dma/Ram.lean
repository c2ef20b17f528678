import RiscvSoc.Axi
import RiscvSoc.Lib.Bytes
/-!
# `dma_ram.v`

The scratch memory of the DMA, with `SIZE_WORDS = 2^k` words. Its reset leaves
the memory alone.
-/

namespace RiscvSoc.Dma

abbrev Mem (k : ℕ) := BitVec k → Word32

inductive BurstState
  | idle
  | burst
  deriving DecidableEq, Repr

/-- `k` is the source's `ADDR_BITS`. -/
structure DmaRam (k : ℕ) where
  mem : Mem k
  wState : BurstState
  wWordIdx : BitVec k
  wBeatsLeft : BitVec 8
  sBvalid : Bool
  sBresp : Resp
  rState : BurstState
  rWordIdx : BitVec k
  rBeatsLeft : BitVec 8
  sRvalid : Bool
  sRdata : Word32
  sRresp : Resp
  sRlast : Bool

namespace DmaRam

variable {k : ℕ}

/-- `addr[ADDR_BITS+1:2]`. -/
def wordIdx (k : ℕ) (addr : Word32) : BitVec k := addr.extractLsb' 2 k

def rsp (s : DmaRam k) : BurstRsp where
  awready := s.wState = .idle
  wready := s.wState = .burst
  bvalid := s.sBvalid
  bresp := s.sBresp
  arready := s.rState = .idle
  rvalid := s.sRvalid
  rdata := s.sRdata
  rresp := s.sRresp
  rlast := s.sRlast

def writePath (s : DmaRam k) (i : BurstReq) : DmaRam k :=
  match s.wState with
  | .idle =>
    if i.awvalid then
      { s with
        wWordIdx := wordIdx k i.awaddr, wBeatsLeft := i.awlen, wState := .burst
        sBvalid := s.sBvalid && !i.bready }
    else { s with sBvalid := s.sBvalid && !i.bready }
  | .burst =>
    if i.wvalid then
      let mem := Function.update s.mem s.wWordIdx (Bytes.merge i.wstrb (s.mem s.wWordIdx) i.wdata)
      if i.wlast then
        { s with
          mem := mem, wWordIdx := s.wWordIdx + 1, sBresp := axiRespOkay, wState := .idle
          -- a response taken on this edge wins over the new one
          sBvalid := !(s.sBvalid && i.bready) }
      else
        { s with
          mem := mem, wWordIdx := s.wWordIdx + 1, wBeatsLeft := s.wBeatsLeft - 1
          sBvalid := s.sBvalid && !i.bready }
    else { s with sBvalid := s.sBvalid && !i.bready }

/-- The read path, on the memory as it was before the edge. -/
def readPath (mem : Mem k) (s : DmaRam k) (i : BurstReq) : DmaRam k :=
  match s.rState with
  | .idle =>
    if i.arvalid then
      { s with sRvalid := false, rWordIdx := wordIdx k i.araddr, rBeatsLeft := i.arlen, rState := .burst }
    else { s with sRvalid := false }
  | .burst =>
    -- no beat is on show, or it has been taken
    if !s.sRvalid || i.rready then
      if s.rBeatsLeft = 0 then
        { s with
          sRdata := mem s.rWordIdx, sRresp := axiRespOkay, sRlast := true, sRvalid := true, rState := .idle }
      else
        { s with
          sRdata := mem s.rWordIdx, sRresp := axiRespOkay, sRlast := false, sRvalid := true
          rWordIdx := s.rWordIdx + 1, rBeatsLeft := s.rBeatsLeft - 1 }
    else s

def step (resetn : Bool) (s : DmaRam k) (i : BurstReq) : DmaRam k :=
  if !resetn then { s with wState := .idle, sBvalid := false, rState := .idle, sRvalid := false }
  else (s.writePath i).readPath s.mem i

end DmaRam

end RiscvSoc.Dma
