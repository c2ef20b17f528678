import RiscvSoc.Cpu.MainEdges
/-!
# The phases of an instruction

Between two edges the core waits for an instruction, has it, takes an interrupt, or is in a
phase of an instruction. What the program sees is in the registers of the core, or on its way
there: the last result is written in the first cycle of the next fetch.
-/

namespace RiscvSoc.Cpu

open Rv32

namespace Core

variable (code : Word32 → Word32) (a : Arch) (s : Core)

/-! ## What holds in many phases -/

/-- The co-processors have nothing to do. -/
structure PcpiQuiet : Prop where
  valid : s.pcpiValid = false
  mul : s.mul.Quiet
  div : s.div.Quiet
  counter : s.pcpiTimeoutCounter = 15

/-- They may just have answered. -/
structure PcpiRest : Prop where
  valid : s.pcpiValid = false
  mul : s.mul.Quiet ∨ PcpiMul.service.Drained s.mul
  div : s.div.Quiet ∨ PcpiDiv.service.Drained s.div

/-- The machine runs. -/
structure Running : Prop where
  stopped : a.stopped = false
  trap : s.trap = false
  mask : s.irqMask = a.irqMask
  evenPc : a.pc.getLsbD 0 = false
  evenReg : s.regPc.getLsbD 0 = false
  clear : s.clearPrefetchedHighWordQ = true → s.prefetchedHighWord = false

/-- No data is wanted. -/
structure NoData : Prop where
  rdata : s.memDoRdata = false
  wdata : s.memDoWdata = false

/-- No instruction is executed: the registers are those of the program after the next edge. -/
structure Between : Prop extends Running a s, NoData s where
  state : s.cpuState = .fetch
  irqState : s.irqState = 0
  regs : s.cpuregsNext true = a.regs
  pc : s.currentPc = a.pc
  active : s.irqActive = a.irqActive

/-- The instruction at `T` is in the decoder, and the buffer has the rest of its word. -/
structure Got (T : Word32) : Prop where
  insn : ∀ i, Decoded (insnAt code T) s.toDecodeFirst (s.decodeSecond true i)
  length : s.instrLen = lengthAt code T
  buffered : Buffered code (T + lengthAt code T) s

/-- An instruction is executed. -/
structure Executing : Prop extends Running a s where
  irqState : s.irqState = 0
  regs : s.cpuregs = a.regs
  pc : s.regPc = a.pc
  active : s.irqActive = a.irqActive
  branch : s.latchedBranch = false
  nextPc : s.regNextPc = a.pc + lengthAt code a.pc
  length : (if s.latchedCompr then 2 else 4 : Word32) = lengthAt code a.pc

/-- And it is in the decoder. -/
structure Decodes : Prop extends Executing code a s, NoData s where
  trigger : s.decoderTrigger = false
  insn : Decoded (insnAt code a.pc) s.toDecodeFirst s.toDecodeSecond
  stalu : s.latchedStalu = false

/-- The next instruction is fetched. -/
structure Ahead (r : Bool) : Prop where
  prefetch : s.memDoPrefetch = true
  rinst : s.memDoRinst = r
  fetching : Fetching code (a.pc + lengthAt code a.pc) r s

/-! ## The phases -/

/-- The core waits for an instruction. -/
structure Fetches : Prop extends Between a s where
  trigger : s.decoderTrigger = false
  waitirq : s.doWaitirq = false
  pcpi : PcpiRest s
  fetch : (s.memDoPrefetch = false ∧ s.memDoRinst = false ∧ Idle s ∧ Ready code a.pc s) ∨
    (Asks a.pc s ∧ Fetching code a.pc s.memDoRinst s)

/-- No transaction is under way and none is wanted. -/
structure Still : Prop where
  prefetch : s.memDoPrefetch = false
  rinst : s.memDoRinst = false
  idle : Idle s

/-- It has one. -/
structure Dispatches : Prop extends Between a s, Still s where
  trigger : s.decoderTrigger = true
  branch : s.latchedBranch = false
  pcpi : PcpiQuiet s
  got : Got code s a.pc

/-- `waitirq` waits. -/
structure Waits : Prop extends Between a s, Still s where
  trigger : s.decoderTrigger = false
  waitirq : s.doWaitirq = true
  branch : s.latchedBranch = false
  store : s.latchedStore = false
  pcpi : PcpiQuiet s
  got : Got code s a.pc
  instr : s.instrWaitirq = true

/-- An interrupt is to be taken. -/
structure Interrupt : Prop extends Running a s, NoData s where
  state : s.cpuState = .fetch
  trigger : s.decoderTrigger = false
  waitirq : s.doWaitirq = false
  branch : s.latchedBranch = false
  store : s.latchedStore = false
  idle : Idle s
  prefetch : s.memDoPrefetch = false
  pcpi : PcpiQuiet s
  inactive : a.irqActive = false
  pending : s.irqPending &&& ~~~s.irqMask ≠ 0

/-- `q0` is written. -/
structure SavesPc : Prop extends Interrupt a s where
  irqState : s.irqState = 0b01
  rinst : s.memDoRinst = false
  active : s.irqActive = false
  regs : s.cpuregs = a.regs
  rd : s.latchedRd = 32
  pc : s.regNextPc = a.pc

/-- `q1` is written. -/
structure SavesIrq : Prop extends Interrupt a s where
  irqState : s.irqState = 0b10
  rinst : s.memDoRinst = true
  active : s.irqActive = true
  regs : ∃ bit : Bool, s.cpuregs = (a.write 32 (a.pc ||| (BitVec.ofBool bit).setWidth 32)).regs
  rd : s.latchedRd = 33
  pc : s.regNextPc = progaddrIrq

/-- The operands are read. -/
structure ReadsOperands : Prop extends Decodes code a s where
  state : s.cpuState = .ldRs1
  store : s.latchedStore = false
  rd : s.latchedRd = s.decodedRd
  pcpi : PcpiQuiet s
  timeout : s.pcpiTimeout = false
  upper : s.isLuiAuipcJal = (s.instrLui || s.instrAuipc || s.instrJal)
  jal : s.instrJal = false
  waitirq : s.instrWaitirq = false
  fetch : if s.instrJalr || s.instrRetirq then Still s else Ahead code a s false

/-- The operands of the arithmetic unit. -/
def ExecOperands (a : Arch) (s : Core) : Insn → Prop
  | .base (.lui _ imm) => s.regOp1 = 0 ∧ s.regOp2 = imm
  | .base (.auipc _ imm) => s.regOp1 = a.pc ∧ s.regOp2 = imm
  | .base (.jalr _ rs1 imm) | .base (.imm _ _ rs1 imm) => s.regOp1 = a.x rs1 ∧ s.regOp2 = imm
  | .base (.alu _ _ rs1 rs2) | .base (.branch _ rs1 rs2 _) => s.regOp1 = a.x rs1 ∧ s.regOp2 = a.x rs2
  | .base (.fence _) => True
  | _ => False

/-- The arithmetic unit computes. -/
structure Computes : Prop extends Decodes code a s where
  state : s.cpuState = .exec
  store : s.latchedStore = false
  rd : s.latchedRd = s.decodedRd
  pcpi : PcpiQuiet s
  classed : Classed s
  operands : ExecOperands a s (insnAt code a.pc)
  fetch : if s.instrJalr then Still s
    else s.memDoPrefetch = true ∧ s.memDoRinst = true ∧ Sequel code (a.pc + lengthAt code a.pc) s

/-- A branch is not taken: the next instruction is awaited. -/
structure FallsThrough : Prop extends Decodes code a s where
  state : s.cpuState = .exec
  store : s.latchedStore = false
  pcpi : PcpiQuiet s
  classed : Classed s
  branches : ∃ op rs1 rs2 imm, insnAt code a.pc = .base (.branch op rs1 rs2 imm) ∧ s.regOp1 = a.x rs1 ∧ s.regOp2 = a.x rs2 ∧
    op.taken (a.x rs1) (a.x rs2) = false
  fetch : Ahead code a s true

/-- A branch is taken. -/
structure Takes (target : Word32) : Prop extends Running a s, NoData s where
  state : s.cpuState = .exec
  irqState : s.irqState = 0
  regs : s.cpuregs = a.regs
  pc : s.regPc = a.pc
  active : s.irqActive = a.irqActive
  trigger : s.decoderTrigger = false
  stalu : s.latchedStalu = false
  pcpi : PcpiQuiet s
  classed : Classed s
  insn : Decoded (insnAt code a.pc) s.toDecodeFirst s.toDecodeSecond
  branches : ∃ op rs1 rs2 imm, insnAt code a.pc = .base (.branch op rs1 rs2 imm) ∧ s.regOp1 = a.x rs1 ∧ s.regOp2 = a.x rs2 ∧
    op.taken (a.x rs1) (a.x rs2) = true ∧ target = a.pc + imm

/-- The end of the stray fetch is awaited. -/
structure Branches (target : Word32) : Prop extends Takes code a s target where
  branch : s.latchedBranch = true
  store : s.latchedStore = true
  rinst : s.memDoRinst = true
  out : s.regOut = target
  stray : Stray target s ∨ Idle s

/-- A shift goes on. -/
structure Shifts : Prop extends Decodes code a s where
  state : s.cpuState = .shift
  pcpi : PcpiQuiet s
  result : ∃ op rd v, ((insnAt code a.pc).kind = .shiftImm op ∨ (insnAt code a.pc).kind = .shift op) ∧
    (∀ len u, a.exec len u (insnAt code a.pc) = (none, a.result len rd v)) ∧ s.latchedRd = rd.setWidth 6 ∧
    op.eval s.regOp1 s.regSh.toNat = v
  fetch : Ahead code a s false

/-- A store, and a load, fetches the next instruction first. -/
structure StoreFetches : Prop extends Decodes code a s where
  state : s.cpuState = .stmem
  store : s.latchedStore = false
  pcpi : PcpiQuiet s
  operands : ∃ op rs1 rs2, insnAt code a.pc = .base (.store op rs1 rs2 s.decodedImm) ∧ s.regOp1 = a.x rs1 ∧ s.regOp2 = a.x rs2
  fetch : Ahead code a s true

structure LoadFetches : Prop extends Decodes code a s where
  state : s.cpuState = .ldmem
  pcpi : PcpiQuiet s
  classed : Classed s
  operands : ∃ op rd rs1, insnAt code a.pc = .base (.load op rd rs1 s.decodedImm) ∧ s.regOp1 = a.x rs1 ∧ s.latchedRd = rd.setWidth 6
  fetch : Ahead code a s true

/-- A data access, the next instruction being there. -/
structure Accesses : Prop extends Executing code a s where
  stalu : s.latchedStalu = false
  prefetch : s.memDoPrefetch = false
  rinst : s.memDoRinst = false
  pcpi : PcpiQuiet s
  got : Got code s (a.pc + lengthAt code a.pc)

/-- The store `op` of `reg_op2` to `reg_op1` is about to begin or under way. -/
structure StoreUnderWay (op : StoreOp) : Prop where
  wdata : s.memDoWdata = true
  rdata : s.memDoRdata = false
  size : s.memWordsize = wordsize op.size
  transfer : Idle s ∨ ∃ strb data, strb ≠ 0 ∧ lanesOf strb data = op.lanes s.regOp1 s.regOp2 ∧ Storing strb data s

structure LoadUnderWay (op : LoadOp) : Prop extends LoadFlags op s where
  rdata : s.memDoRdata = true
  wdata : s.memDoWdata = false
  transfer : Idle s ∨ Loading s

structure Stores : Prop extends Accesses code a s where
  state : s.cpuState = .stmem
  store : s.latchedStore = false
  access : ∃ op rs1 rs2 imm, insnAt code a.pc = .base (.store op rs1 rs2 imm) ∧ s.regOp1 = a.x rs1 + imm ∧ s.regOp2 = a.x rs2 ∧
    StoreUnderWay s op

structure Loads : Prop extends Accesses code a s where
  state : s.cpuState = .ldmem
  access : ∃ op rd rs1 imm, insnAt code a.pc = .base (.load op rd rs1 imm) ∧ s.regOp1 = a.x rs1 + imm ∧ s.latchedRd = rd.setWidth 6 ∧
    LoadUnderWay s op

/-- A co-processor `u` has had the instruction for `k` cycles, and there is time enough. -/
structure Serves {σ ι α : Type} {step : Bool → σ → ι → σ} (m : Sync.Service step α PcpiReq) (u : σ) (k : ℕ) (op : α) : Prop where
  has : m.Has op s.pcpiReq k u
  le : k ≤ m.latency op
  req : m.req s.pcpiReq = some op
  timeout : s.pcpiTimeout = false
  counter : 15 ≤ s.pcpiTimeoutCounter.toNat + min k 2

/-- No co-processor takes the instruction. -/
structure Refused : Prop where
  insn : isMulDiv s.pcpiInsn = false
  mul : s.mul.Quiet
  div : s.div.Quiet

/-- A co-processor has the instruction, or none takes it and the time runs out. -/
inductive PcpiWork (a : Arch) (s : Core) : Insn → Prop
  | mul (op : MulOp) (rd rs1 rs2 : Reg) (k : ℕ) (h : Serves s PcpiMul.service s.mul k op) (hq : s.div.Quiet)
    (h1 : s.regOp1 = a.x rs1) (h2 : s.regOp2 = a.x rs2) : PcpiWork a s (.base (.mul op rd rs1 rs2))
  | div (op : DivOp) (rd rs1 rs2 : Reg) (k : ℕ) (h : Serves s PcpiDiv.service s.div k op) (hq : s.mul.Quiet)
    (h1 : s.regOp1 = a.x rs1) (h2 : s.regOp2 = a.x rs2) : PcpiWork a s (.base (.div op rd rs1 rs2))
  | none (h : Refused s) : PcpiWork a s .illegal

structure AwaitsPcpi : Prop extends Decodes code a s where
  state : s.cpuState = .ldRs1
  store : s.latchedStore = false
  rd : s.latchedRd = s.decodedRd
  fetch : Ahead code a s false
  valid : s.pcpiValid = true
  work : PcpiWork a s (insnAt code a.pc)

/-! ## The core stops -/

/-- The access that is the reason is under way. -/
structure Stops : Prop where
  stopped : a.stopped = false
  state : s.cpuState = .trap
  jumps : s.jumps = false
  clear : s.clearPrefetchedHighWordQ = true → s.prefetchedHighWord = false
  prefetch : s.memDoPrefetch = false
  rinst : s.memDoRinst = false
  fatal : (!a.irqMask.getLsbD irqBuserror && !a.irqActive) = false
  access : (∃ op rs1 rs2 imm strb data, insnAt code a.pc = .base (.store op rs1 rs2 imm) ∧ s.regOp1 = a.x rs1 + imm ∧
      aligned op.size s.regOp1 = false ∧ s.memDoWdata = true ∧ s.memDoRdata = false ∧ strb ≠ 0 ∧
      lanesOf strb data = op.lanes s.regOp1 (a.x rs2) ∧ Storing strb data s) ∨
    (∃ op rd rs1 imm, insnAt code a.pc = .base (.load op rd rs1 imm) ∧ s.regOp1 = a.x rs1 + imm ∧
      aligned op.size s.regOp1 = false ∧ s.memDoRdata = true ∧ s.memDoWdata = false ∧ Loading s)

/-- And there is no more to come. -/
structure Stopped : Prop where
  stopped : a.stopped = true
  state : s.cpuState = .trap
  rdata : s.memDoRdata = false
  wdata : s.memDoWdata = false
  valid : s.memValid = true → s.memInstr = true
  fetch : s.trap = false → Idle s ∨ ∃ T, Asks T s ∧ Fetching code T s.memDoRinst s

/-- Where the core is, and the state of the program's machine. -/
inductive Phase : Prop
  | fetch (h : Fetches code a s)
  | dispatch (h : Dispatches code a s)
  | waits (h : Waits code a s)
  | savesPc (h : SavesPc a s)
  | savesIrq (h : SavesIrq a s)
  | operands (h : ReadsOperands code a s)
  | pcpi (h : AwaitsPcpi code a s)
  | computes (h : Computes code a s)
  | fallsThrough (h : FallsThrough code a s)
  | branches (target : Word32) (h : Branches code a s target)
  | shifts (h : Shifts code a s)
  | storeFetches (h : StoreFetches code a s)
  | loadFetches (h : LoadFetches code a s)
  | stores (h : Stores code a s)
  | loads (h : Loads code a s)
  | stops (h : Stops code a s)
  | stopped (h : Stopped code a s)

end Core

end RiscvSoc.Cpu
