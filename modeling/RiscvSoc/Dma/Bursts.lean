import RiscvSoc.Dma.Control
/-!
# The burst port

The five channels between the engine and its memory as events, one for each
handshake, and what the engine has on offer on the three it drives.
-/

namespace RiscvSoc.Dma

open Sync Aes

inductive BurstEvent
  | ar (addr : Word32) (len : BitVec 8) (size : BitVec 3) (burst : BitVec 2)
  | r (data : Word32) (last : Bool)
  | aw (addr : Word32) (len : BitVec 8) (size : BitVec 3) (burst : BitVec 2)
  | w (data : Word32) (strb : BitVec 4) (last : Bool)
  | b
  deriving DecidableEq, Repr

/-- The handshakes of a cycle. -/
def burstEvents (q : BurstReq) (p : BurstRsp) : List BurstEvent :=
  whenFire q.arvalid p.arready (.ar q.araddr q.arlen q.arsize q.arburst) ++
    whenFire p.rvalid q.rready (.r p.rdata p.rlast) ++
    whenFire q.awvalid p.awready (.aw q.awaddr q.awlen q.awsize q.awburst) ++
    whenFire q.wvalid p.wready (.w q.wdata q.wstrb q.wlast) ++ whenFire p.bvalid q.bready .b

namespace DmaEngine

variable (e : DmaEngine) (i : EngineIn)

def busEvents : List BurstEvent := burstEvents (burst e.fsm) i.ram

/-- In each state one channel at most is in use. -/
theorem busEvents_eq (h : Strobes e.fsm) :
    e.busEvents i =
      match e.fsm.state with
      | .rdAddr =>
        whenFire e.fsm.mArvalid i.ram.arready (.ar e.fsm.mAraddr e.fsm.mArlen e.fsm.mArsize e.fsm.mArburst)
      | .rdData => whenFire i.ram.rvalid true (.r i.ram.rdata i.ram.rlast)
      | .wrAddr =>
        whenFire e.fsm.mAwvalid i.ram.awready (.aw e.fsm.mAwaddr e.fsm.mAwlen e.fsm.mAwsize e.fsm.mAwburst)
      | .wrData => whenFire true i.ram.wready (.w (e.fsm.wrBlock.extractLsb' 96 32) 0xF (e.fsm.beatCnt = 3))
      | .wrResp => whenFire i.ram.bvalid true .b
      | .idle | .aesGo | .aesWait | .done => [] := by
  obtain ⟨-, -, arvalid, rready, awvalid, wvalid, bready, -⟩ := h
  cases hs : e.fsm.state <;>
    simp only [hs, reduceCtorEq, imp_false, iff_true, iff_false, Bool.not_eq_true]
      at arvalid rready awvalid wvalid bready <;>
    simp [busEvents, burstEvents, burst, whenFire, *]

/-- The payloads that go with a VALID. -/
def arOffer : Option (Word32 × BitVec 8 × BitVec 3 × BitVec 2) :=
  offered e.fsm.mArvalid (e.fsm.mAraddr, e.fsm.mArlen, e.fsm.mArsize, e.fsm.mArburst)

def awOffer : Option (Word32 × BitVec 8 × BitVec 3 × BitVec 2) :=
  offered e.fsm.mAwvalid (e.fsm.mAwaddr, e.fsm.mAwlen, e.fsm.mAwsize, e.fsm.mAwburst)

def wOffer : Option (Word32 × BitVec 4 × Bool) :=
  offered e.fsm.mWvalid ((burst e.fsm).wdata, (burst e.fsm).wstrb, (burst e.fsm).wlast)

end DmaEngine

/-! ## Stable payloads -/

/-- The addresses are out as long as they are valid. -/
structure Payloads (f : DmaFsm) : Prop where
  ar : f.mArvalid = true → f.mAraddr = f.curSrc ∧ f.mArlen = 3 ∧ f.mArsize = axi4Size4B ∧ f.mArburst = axi4BurstIncr
  aw : f.mAwvalid = true → f.mAwaddr = f.curDst ∧ f.mAwlen = 3 ∧ f.mAwsize = axi4Size4B ∧ f.mAwburst = axi4BurstIncr

theorem payloads_reset (e : DmaEngine) (i : EngineIn) : Payloads (e.fsmStep false i) := by
  constructor <;> simp [DmaEngine.fsmStep]

theorem payloads_step (e : DmaEngine) (i : EngineIn) (hst : Strobes e.fsm) (h : Payloads e.fsm) :
    Payloads (e.fsmStep true i) := by
  obtain ⟨-, -, arvalid, -, awvalid, -⟩ := hst
  obtain ⟨ar, aw⟩ := h
  simp only [DmaEngine.fsmStep, DmaEngine.fsmCase]
  cases hs : e.fsm.state <;> simp only [hs, reduceCtorEq, imp_false, Bool.not_eq_true] at arvalid awvalid <;>
    constructor <;> grind

section Runs

variable (r : Run DmaEngine.step)

theorem engineCtl (n : ℕ) : EngineCtl (r.st n) := r.invariant engineCtl_reset engineCtl_step n

theorem payloads (n : ℕ) : Payloads (r.st n).fsm := by
  induction n with
  | zero => exact payloads_reset r.powerUp r.resetInp
  | succ n ih => exact payloads_step (r.st n) (r.inp n) (engineCtl r n).strobes ih

/-- Whatever answers it, the engine holds what it offers until it is taken. -/
theorem engine_holds_offers :
    Held (fun n => (r.st n).arOffer) (fun n => (r.inp n).ram.arready) ∧
      Held (fun n => (r.st n).awOffer) (fun n => (r.inp n).ram.awready) ∧
      Held (fun n => (r.st n).wOffer) (fun n => (r.inp n).ram.wready) := by
  refine ⟨.of_edge fun n x hx hr => ?_, .of_edge fun n x hx hr => ?_, .of_edge fun n x hx hr => ?_⟩
  · obtain ⟨hv, rfl⟩ := offered_eq_some.1 hx
    have hs := (engineCtl r n).strobes.arvalid hv
    obtain ⟨h1, h2, h3, h4⟩ := (payloads r n).ar hv
    simp [DmaEngine.arOffer, offered, Run.st_succ, DmaEngine.step, DmaEngine.fsmStep, DmaEngine.fsmCase, hs, hv, hr,
      h1, h2, h3, h4]
  · obtain ⟨hv, rfl⟩ := offered_eq_some.1 hx
    have hs := (engineCtl r n).strobes.awvalid hv
    obtain ⟨h1, h2, h3, h4⟩ := (payloads r n).aw hv
    simp [DmaEngine.awOffer, offered, Run.st_succ, DmaEngine.step, DmaEngine.fsmStep, DmaEngine.fsmCase, hs, hv, hr,
      h1, h2, h3, h4]
  · obtain ⟨hv, rfl⟩ := offered_eq_some.1 hx
    have hs := (engineCtl r n).strobes.wvalid.1 hv
    simp [DmaEngine.wOffer, offered, Run.st_succ, DmaEngine.step, DmaEngine.fsmStep, DmaEngine.fsmCase, DmaEngine.burst,
      hs, hv, hr]

end Runs

end RiscvSoc.Dma
