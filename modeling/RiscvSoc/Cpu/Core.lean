import RiscvSoc.Cpu.Decoder
import RiscvSoc.Cpu.Pcpi
/-!
# `picorv32`

The core with the parameters of `soc_top`: compressed instructions, multiplier, divider and
interrupts on, no barrel shifter, no external co-processor. The registers are grouped by the
always block that writes them; those that only debugging, tracing and the formal interface
read are not there. A value that the source leaves undefined (`'bx`) is an input.
-/

namespace RiscvSoc.Cpu

/-! ## Parameters -/

def stackaddr : Word32 := 0x10020000
def progaddrReset : Word32 := 0x00000000
def progaddrIrq : Word32 := 0x00000010
def maskedIrq : Word32 := 0x00000000
def latchedIrq : Word32 := 0xFFFFFFFF
def irqTimer : ℕ := 0
def irqEbreak : ℕ := 1
def irqBuserror : ℕ := 2
def irqregsOffset : BitVec 6 := 32

/-- The size of the register file: `x0` to `x31`, `q0` to `q3`. -/
def regfileSize : ℕ := 36

/-! ## Registers -/

inductive CpuState
  | trap
  | fetch
  | ldRs1
  | exec
  | shift
  | stmem
  | ldmem
  deriving DecidableEq, Repr, Inhabited

/-- Of the memory interface: what the last cycle did. -/
structure MemTrack where
  memLaFirstwordReg : Bool
  lastMemValid : Bool
  deriving Inhabited

/-- The memory interface. -/
structure MemFsm where
  memState : BitVec 2
  memValid : Bool
  memInstr : Bool
  memAddr : Word32
  memWdata : Word32
  memWstrb : BitVec 4
  memLaSecondword : Bool
  prefetchedHighWord : Bool
  mem16bitBuffer : BitVec 16
  deriving Inhabited

/-- The main state machine. -/
structure Main where
  trap : Bool
  cpuState : CpuState
  regPc : Word32
  regNextPc : Word32
  regOp1 : Word32
  regOp2 : Word32
  regOut : Word32
  regSh : BitVec 5
  aluOutQ : Word32
  countCycle : BitVec 64
  countInstr : BitVec 64
  memWordsize : BitVec 2
  memDoPrefetch : Bool
  memDoRinst : Bool
  memDoRdata : Bool
  memDoWdata : Bool
  decoderTrigger : Bool
  decoderPseudoTrigger : Bool
  latchedStore : Bool
  latchedStalu : Bool
  latchedBranch : Bool
  latchedCompr : Bool
  latchedIsLu : Bool
  latchedIsLh : Bool
  latchedIsLb : Bool
  latchedRd : BitVec 6
  irqDelay : Bool
  irqActive : Bool
  irqMask : Word32
  irqPending : Word32
  irqState : BitVec 2
  eoi : Word32
  timer : Word32
  doWaitirq : Bool
  pcpiValid : Bool
  pcpiTimeoutCounter : BitVec 4
  pcpiTimeout : Bool
  deriving Inhabited

structure Core extends MemTrack, MemFsm, DecodeFirst, DecodeSecond, DecodeClass, Main where
  memRdataQ : Word32
  clearPrefetchedHighWordQ : Bool
  cpuregs : BitVec 6 → Word32
  mul : PcpiMul
  div : PcpiDiv
  deriving Inhabited

/-- The values that the source leaves undefined in a cycle. -/
structure Undef where
  regSh : BitVec 5
  regOut : Word32
  regOp1 : Word32
  regOp2 : Word32
  aluOut0 : Bool
  aluOut : Word32
  decodedImm : Word32
  rdataHigh : BitVec 16
  /-- A register that the register file does not have. -/
  cpureg : Word32
  pcpiRd : Word32
  /-- `mem_wordsize` is 3. -/
  laWdata : Word32
  laWstrb : BitVec 4
  rdataWord : Word32
  deriving Inhabited

structure CoreIn where
  memReady : Bool
  memRdata : Word32
  irq : Word32
  undef : Undef
  deriving Inhabited

namespace Core

variable (resetn : Bool) (s : Core) (i : CoreIn)

/-! ## Internal co-processors -/

def pcpiReq : PcpiReq := ⟨s.pcpiValid, s.pcpiInsn, s.regOp1, s.regOp2⟩

def pcpiIntWait : Bool := s.mul.pcpiWait || s.div.pcpiWait

def pcpiIntReady : Bool := s.mul.pcpiReady || s.div.pcpiReady

def pcpiIntWr : Bool :=
  if s.mul.pcpiReady then s.mul.pcpiWr else if s.div.pcpiReady then s.div.pcpiWr else false

def pcpiIntRd : Word32 :=
  if s.mul.pcpiReady then s.mul.pcpiRd else if s.div.pcpiReady then s.div.pcpiRd else i.undef.pcpiRd

/-! ## Memory interface -/

def nextPc : Word32 := if s.latchedStore && s.latchedBranch then s.regOut &&& ~~~1 else s.regNextPc

def clearPrefetchedHighWord : Bool :=
  if s.latchedBranch || s.irqState ≠ 0 || !resetn then true
  else if !s.prefetchedHighWord then false
  else s.clearPrefetchedHighWordQ

def memLaFirstword : Bool := (s.memDoPrefetch || s.memDoRinst) && s.nextPc.getLsbD 1 && !s.memLaSecondword

def memLaUsePrefetchedHighWord : Bool :=
  s.memLaFirstword && s.prefetchedHighWord && !s.clearPrefetchedHighWord resetn

def memXfer : Bool := (s.memValid && i.memReady) || (s.memLaUsePrefetchedHighWord resetn && s.memDoRinst)

def memLaFirstwordXfer : Bool :=
  s.memXfer resetn i && (if !s.lastMemValid then s.memLaFirstword else s.memLaFirstwordReg)

def memRdataLatchedNoshuffle : Word32 := if s.memXfer resetn i then i.memRdata else s.memRdataQ

def memRdataLatched : Word32 :=
  if s.memLaUsePrefetchedHighWord resetn then i.undef.rdataHigh ++ s.mem16bitBuffer
  else if s.memLaSecondword then (s.memRdataLatchedNoshuffle resetn i).extractLsb 15 0 ++ s.mem16bitBuffer
  else if s.memLaFirstword then i.undef.rdataHigh ++ (s.memRdataLatchedNoshuffle resetn i).extractLsb 31 16
  else s.memRdataLatchedNoshuffle resetn i

/-- The lower half of a 32-bit instruction, not a compressed one. -/
def isFull (x : Word32) : Bool := x.extractLsb 1 0 = 0b11

def memDone : Bool :=
  resetn &&
    ((s.memXfer resetn i && s.memState ≠ 0 && (s.memDoRinst || s.memDoRdata || s.memDoWdata)) ||
      (s.memState = 3 && s.memDoRinst)) &&
    (!s.memLaFirstword || (!isFull (s.memRdataLatched resetn i) && s.memXfer resetn i))

def memLaWrite : Bool := resetn && s.memState = 0 && s.memDoWdata

def memLaRead : Bool :=
  resetn &&
    ((!s.memLaUsePrefetchedHighWord resetn && s.memState = 0 && (s.memDoRinst || s.memDoPrefetch || s.memDoRdata)) ||
      (s.memLaFirstwordXfer resetn i && !s.memLaSecondword && isFull (s.memRdataLatched resetn i)))

def memLaAddr : Word32 :=
  if s.memDoPrefetch || s.memDoRinst then
    (s.nextPc.extractLsb 31 2 + (BitVec.ofBool (s.memLaFirstwordXfer resetn i)).setWidth 30) ++ 0b00#2
  else s.regOp1.extractLsb 31 2 ++ 0b00#2

def memTrack : MemTrack :=
  if !resetn then ⟨false, false⟩
  else
    { memLaFirstwordReg := if !s.lastMemValid then s.memLaFirstword else s.memLaFirstwordReg
      lastMemValid := s.memValid && !i.memReady }

def memLaWdata : Word32 :=
  if s.memWordsize = 0 then s.regOp2
  else if s.memWordsize = 1 then s.regOp2.extractLsb 15 0 ++ s.regOp2.extractLsb 15 0
  else if s.memWordsize = 2 then
    s.regOp2.extractLsb 7 0 ++ s.regOp2.extractLsb 7 0 ++ s.regOp2.extractLsb 7 0 ++ s.regOp2.extractLsb 7 0
  else i.undef.laWdata

def memLaWstrb : BitVec 4 :=
  if s.memWordsize = 0 then 0b1111
  else if s.memWordsize = 1 then (if s.regOp1.getLsbD 1 then 0b1100 else 0b0011)
  else if s.memWordsize = 2 then 0b0001 <<< (s.regOp1.extractLsb 1 0).toNat
  else i.undef.laWstrb

def memRdataWord : Word32 :=
  if s.memWordsize = 0 then i.memRdata
  else if s.memWordsize = 1 then
    (if s.regOp1.getLsbD 1 then i.memRdata.extractLsb 31 16 else i.memRdata.extractLsb 15 0).setWidth 32
  else if s.memWordsize = 2 then (i.memRdata.extractLsb' (8 * (s.regOp1.extractLsb 1 0).toNat) 8).setWidth 32
  else i.undef.rdataWord

/-- The memory interface's state machine; `mem_addr`, `mem_wstrb` and `mem_wdata` follow the
look-ahead signals. -/
def memFsm : MemFsm :=
  let clear (prefetched : Bool) : Bool := if s.clearPrefetchedHighWord resetn then false else prefetched
  if !resetn || s.trap then
    { s.toMemFsm with
      memState := if !resetn then 0 else s.memState
      memValid := if !resetn || i.memReady then false else s.memValid
      memLaSecondword := false
      prefetchedHighWord := false }
  else
    let addr := if s.memLaRead resetn i || s.memLaWrite resetn then s.memLaAddr resetn i else s.memAddr
    let wstrb :=
      if s.memLaRead resetn i || s.memLaWrite resetn then (if s.memLaWrite resetn then s.memLaWstrb i else 0) else s.memWstrb
    let wdata := if s.memLaWrite resetn then s.memLaWdata i else s.memWdata
    if s.memState = 0 then
      let reads := s.memDoPrefetch || s.memDoRinst || s.memDoRdata
      { s.toMemFsm with
        memAddr := addr, memWdata := wdata
        memWstrb := if reads then 0 else wstrb
        memValid := if s.memDoWdata then true else if reads then !s.memLaUsePrefetchedHighWord resetn else s.memValid
        memInstr := if s.memDoWdata then false else if reads then s.memDoPrefetch || s.memDoRinst else s.memInstr
        memState := if s.memDoWdata then 2 else if reads then 1 else s.memState
        prefetchedHighWord := clear s.prefetchedHighWord }
    else if s.memState = 1 then
      if s.memXfer resetn i then
        if s.memLaRead resetn i then
          { s.toMemFsm with
            memAddr := addr, memWdata := wdata, memWstrb := wstrb
            memValid := true
            memLaSecondword := true
            mem16bitBuffer :=
              if !s.memLaUsePrefetchedHighWord resetn then i.memRdata.extractLsb 31 16 else s.mem16bitBuffer
            prefetchedHighWord := clear s.prefetchedHighWord }
        else
          -- the upper half of the word is kept if it is the start of an instruction
          let keep := !isFull i.memRdata || s.memLaSecondword
          { s.toMemFsm with
            memAddr := addr, memWdata := wdata, memWstrb := wstrb
            memValid := false
            memLaSecondword := false
            mem16bitBuffer := if !s.memDoRdata && keep then i.memRdata.extractLsb 31 16 else s.mem16bitBuffer
            prefetchedHighWord := clear (if !s.memDoRdata then keep else s.prefetchedHighWord)
            memState := if s.memDoRinst || s.memDoRdata then 0 else 3 }
      else
        { s.toMemFsm with
          memAddr := addr, memWdata := wdata, memWstrb := wstrb, prefetchedHighWord := clear s.prefetchedHighWord }
    else if s.memState = 2 then
      { s.toMemFsm with
        memAddr := addr, memWdata := wdata, memWstrb := wstrb
        memValid := if s.memXfer resetn i then false else s.memValid
        memState := if s.memXfer resetn i then 0 else s.memState
        prefetchedHighWord := clear s.prefetchedHighWord }
    else
      { s.toMemFsm with
        memAddr := addr, memWdata := wdata, memWstrb := wstrb
        memState := if s.memDoRinst then 0 else s.memState
        prefetchedHighWord := clear s.prefetchedHighWord }

def memRdataQNext : Word32 :=
  let q := if s.memXfer resetn i then s.memRdataLatched resetn i else s.memRdataQ
  if s.memDone resetn i && (s.memDoPrefetch || s.memDoRinst) then expandQ (s.memRdataLatched resetn i) q else q

/-! ## Instruction decoder -/

def decodeFirst : DecodeFirst :=
  let d := if s.memDoRinst && s.memDone resetn i then .ofWord (s.memRdataLatched resetn i) else s.toDecodeFirst
  if !resetn then { d with isBeqBneBltBgeBltuBgeu := false } else d

/-- The second stage decodes. -/
def decodes : Bool := s.decoderTrigger && !s.decoderPseudoTrigger

def decodeSecond : DecodeSecond :=
  let d := if s.decodes then .ofWord s.memRdataQ s.toDecodeFirst i.undef.decodedImm else s.toDecodeSecond
  if !resetn then d.reset else d

def decodeClass : DecodeClass where
  isLuiAuipcJal := s.instrLui || s.instrAuipc || s.instrJal
  isLuiAuipcJalJalrAddiAddSub :=
    !s.decodes && (s.instrLui || s.instrAuipc || s.instrJal || s.instrJalr || s.instrAddi || s.instrAdd || s.instrSub)
  isSltiBltSlt := s.instrSlti || s.instrBlt || s.instrSlt
  isSltiuBltuSltu := s.instrSltiu || s.instrBltu || s.instrSltu
  isLbuLhuLw := s.instrLbu || s.instrLhu || s.instrLw
  isCompare :=
    resetn && !s.decodes && (s.isBeqBneBltBgeBltuBgeu || s.instrSlti || s.instrSlt || s.instrSltiu || s.instrSltu)

def instrTrap : Bool :=
  !(s.instrLui || s.instrAuipc || s.instrJal || s.instrJalr ||
    s.instrBeq || s.instrBne || s.instrBlt || s.instrBge || s.instrBltu || s.instrBgeu ||
    s.instrLb || s.instrLh || s.instrLw || s.instrLbu || s.instrLhu || s.instrSb || s.instrSh || s.instrSw ||
    s.instrAddi || s.instrSlti || s.instrSltiu || s.instrXori || s.instrOri || s.instrAndi || s.instrSlli || s.instrSrli || s.instrSrai ||
    s.instrAdd || s.instrSub || s.instrSll || s.instrSlt || s.instrSltu || s.instrXor || s.instrSrl || s.instrSra || s.instrOr || s.instrAnd ||
    s.instrRdcycle || s.instrRdcycleh || s.instrRdinstr || s.instrRdinstrh || s.instrFence ||
    s.instrGetq || s.instrSetq || s.instrRetirq || s.instrMaskirq || s.instrWaitirq || s.instrTimer)

def isRdcycleRdcyclehRdinstrRdinstrh : Bool := s.instrRdcycle || s.instrRdcycleh || s.instrRdinstr || s.instrRdinstrh

/-! ## Arithmetic -/

def aluAddSub : Word32 := if s.instrSub then s.regOp1 - s.regOp2 else s.regOp1 + s.regOp2

def aluEq : Bool := s.regOp1 = s.regOp2

def aluLts : Bool := s.regOp1.toInt < s.regOp2.toInt

def aluLtu : Bool := s.regOp1.toNat < s.regOp2.toNat

def aluOut0 : Bool :=
  if s.instrBeq then s.aluEq
  else if s.instrBne then !s.aluEq
  else if s.instrBge then !s.aluLts
  else if s.instrBgeu then !s.aluLtu
  else if s.isSltiBltSlt then s.aluLts
  else if s.isSltiuBltuSltu then s.aluLtu
  else i.undef.aluOut0

def aluOut : Word32 :=
  if s.isLuiAuipcJalJalrAddiAddSub then s.aluAddSub
  else if s.isCompare then (BitVec.ofBool (s.aluOut0 i)).setWidth 32
  else if s.instrXori || s.instrXor then s.regOp1 ^^^ s.regOp2
  else if s.instrOri || s.instrOr then s.regOp1 ||| s.regOp2
  else if s.instrAndi || s.instrAnd then s.regOp1 &&& s.regOp2
  else i.undef.aluOut

/-! ## Register file -/

/-- What is written to `cpuregs[latched_rd]`. -/
def cpuregsWrite : Option Word32 :=
  if s.cpuState = .fetch then
    if s.latchedBranch then some (s.regPc + if s.latchedCompr then 2 else 4)
    else if s.latchedStore then some (if s.latchedStalu then s.aluOutQ else s.regOut)
    else if s.irqState.getLsbD 0 then some (s.regNextPc ||| (BitVec.ofBool s.latchedCompr).setWidth 32)
    else if s.irqState.getLsbD 1 then some (s.irqPending &&& ~~~s.irqMask)
    else none
  else none

def cpuregsNext (a : BitVec 6) : Word32 :=
  match s.cpuregsWrite with
  | some x => if resetn && s.latchedRd ≠ 0 && s.latchedRd.toNat < regfileSize && a = s.latchedRd then x else s.cpuregs a
  | none => s.cpuregs a

def cpureg (a : BitVec 6) : Word32 :=
  if a = 0 then 0 else if a.toNat < regfileSize then s.cpuregs a else i.undef.cpureg

def cpuregsRs1 : Word32 := s.cpureg i s.decodedRs1

def cpuregsRs2 : Word32 := s.cpureg i (s.decodedRs2.setWidth 6)

/-! ## Main state machine -/

/-- The registers of the main block and its variables as its statements run. -/
structure Vars extends Main where
  setMemDoRinst : Bool
  setMemDoRdata : Bool
  setMemDoWdata : Bool
  nextIrqPending : Word32

/-- The statements before the `case`. -/
def defaults : Vars :=
  { s.toMain with
    trap := false
    regSh := i.undef.regSh
    regOut := i.undef.regOut
    setMemDoRinst := false, setMemDoRdata := false, setMemDoWdata := false
    aluOutQ := s.aluOut i
    pcpiTimeoutCounter :=
      if resetn && s.pcpiValid && !s.pcpiIntWait then
        (if s.pcpiTimeoutCounter ≠ 0 then s.pcpiTimeoutCounter - 1 else s.pcpiTimeoutCounter)
      else 15
    pcpiTimeout := s.pcpiTimeoutCounter = 0
    countCycle := if resetn then s.countCycle + 1 else 0
    nextIrqPending := s.irqPending &&& latchedIrq
    timer := if s.timer ≠ 0 then s.timer - 1 else s.timer
    decoderTrigger := s.memDoRinst && s.memDone resetn i
    decoderPseudoTrigger := false
    doWaitirq := false }

def reset (t : Vars) : Vars :=
  { t with
    regPc := progaddrReset, regNextPc := progaddrReset
    countInstr := 0
    latchedStalu := false, latchedBranch := false, latchedIsLu := false, latchedIsLh := false, latchedIsLb := false
    pcpiValid := false, pcpiTimeout := false
    irqActive := false, irqDelay := false, irqMask := ~~~0
    nextIrqPending := 0
    irqState := 0, eoi := 0, timer := 0
    latchedStore := true, latchedRd := 2, regOut := stackaddr
    cpuState := .fetch }

/-- Where the instruction to come is. -/
def currentPc : Word32 :=
  if s.latchedBranch then
    (if s.latchedStore then (if s.latchedStalu then s.aluOutQ else s.regOut) &&& ~~~1 else s.regNextPc)
  else if s.latchedStore then s.regNextPc
  else if s.irqState.getLsbD 0 then progaddrIrq
  else s.regNextPc

/-- An interrupt is taken instead of the instruction. -/
def takesIrq : Bool :=
  (s.decoderTrigger && !s.irqActive && !s.irqDelay && s.irqPending &&& ~~~s.irqMask ≠ 0) || s.irqState ≠ 0

def instrLen : Word32 := if s.compressedInstr then 2 else 4

def fetch (t : Vars) : Vars :=
  let pc := s.currentPc
  let irq0 := !s.latchedBranch && !s.latchedStore && s.irqState.getLsbD 0
  let irq1 := !s.latchedBranch && !s.latchedStore && !s.irqState.getLsbD 0 && s.irqState.getLsbD 1
  let t := { t with
    memDoRinst := if irq0 then true else !s.decoderTrigger && !s.doWaitirq
    memWordsize := 0
    irqActive := if irq0 then true else s.irqActive
    eoi := if irq1 then s.irqPending &&& ~~~s.irqMask else s.eoi
    nextIrqPending := if irq1 then t.nextIrqPending &&& s.irqMask else t.nextIrqPending
    regPc := pc, regNextPc := pc
    latchedStore := false, latchedStalu := false, latchedBranch := false
    latchedIsLu := false, latchedIsLh := false, latchedIsLb := false
    latchedRd := s.decodedRd, latchedCompr := s.compressedInstr }
  if s.takesIrq then
    { t with
      irqState := if s.irqState = 0b00 then 0b01 else if s.irqState = 0b01 then 0b10 else 0b00
      latchedCompr := s.latchedCompr
      latchedRd := irqregsOffset ||| (s.irqState.extractLsb 0 0).setWidth 6 }
  else if (s.decoderTrigger || s.doWaitirq) && s.instrWaitirq then
    if s.irqPending ≠ 0 then
      { t with latchedStore := true, regOut := s.irqPending, regNextPc := pc + s.instrLen, memDoRinst := true }
    else { t with doWaitirq := true }
  else if s.decoderTrigger then
    let t := { t with irqDelay := s.irqActive, regNextPc := pc + s.instrLen, countInstr := s.countInstr + 1 }
    if s.instrJal then { t with memDoRinst := true, regNextPc := pc + s.decodedImmJ, latchedBranch := true }
    else { t with memDoRinst := false, memDoPrefetch := !s.instrJalr && !s.instrRetirq, cpuState := .ldRs1 }
  else t

/-- An error is an interrupt if it may be one now, and stops the core otherwise. -/
def catches (n : ℕ) : Bool := !s.irqMask.getLsbD n && !s.irqActive

def ldRs1 (t : Vars) : Vars :=
  let t := { t with regOp1 := i.undef.regOp1, regOp2 := i.undef.regOp2 }
  let rs1 := s.cpuregsRs1 i
  if s.instrTrap then
    let t := { t with regOp1 := rs1, pcpiValid := true, regSh := (s.cpuregsRs2 i).setWidth 5, regOp2 := s.cpuregsRs2 i }
    if s.pcpiIntReady then
      { t with
        memDoRinst := true, pcpiValid := false, regOut := s.pcpiIntRd i, latchedStore := s.pcpiIntWr, cpuState := .fetch }
    else if s.pcpiTimeout || s.instrEcallEbreak then
      if s.catches irqEbreak then
        { t with pcpiValid := false, nextIrqPending := t.nextIrqPending ||| (1 <<< irqEbreak), cpuState := .fetch }
      else { t with pcpiValid := false, cpuState := .trap }
    else t
  else if s.isRdcycleRdcyclehRdinstrRdinstrh then
    { t with
      regOut :=
        if s.instrRdcycle then s.countCycle.extractLsb 31 0
        else if s.instrRdcycleh then s.countCycle.extractLsb 63 32
        else if s.instrRdinstr then s.countInstr.extractLsb 31 0
        else s.countInstr.extractLsb 63 32
      latchedStore := true
      cpuState := .fetch }
  else if s.isLuiAuipcJal then
    { t with
      regOp1 := if s.instrLui then 0 else s.regPc
      regOp2 := s.decodedImm
      memDoRinst := s.memDoPrefetch
      cpuState := .exec }
  else if s.instrGetq then { t with regOut := rs1, latchedStore := true, cpuState := .fetch }
  else if s.instrSetq then
    { t with regOut := rs1, latchedRd := s.latchedRd ||| irqregsOffset, latchedStore := true, cpuState := .fetch }
  else if s.instrRetirq then
    { t with
      eoi := 0, irqActive := false, latchedBranch := true, latchedStore := true
      regOut := rs1 &&& 0xFFFFFFFE
      cpuState := .fetch }
  else if s.instrMaskirq then
    { t with latchedStore := true, regOut := s.irqMask, irqMask := rs1 ||| maskedIrq, cpuState := .fetch }
  else if s.instrTimer then { t with latchedStore := true, regOut := s.timer, timer := rs1, cpuState := .fetch }
  else if s.isLbLhLwLbuLhu then { t with regOp1 := rs1, cpuState := .ldmem, memDoRinst := true }
  else if s.isSlliSrliSrai then { t with regOp1 := rs1, regSh := s.decodedRs2, cpuState := .shift }
  else if s.isJalrAddiSltiSltiuXoriOriAndi then
    { t with regOp1 := rs1, regOp2 := s.decodedImm, memDoRinst := s.memDoPrefetch, cpuState := .exec }
  else
    let t := { t with regOp1 := rs1, regSh := (s.cpuregsRs2 i).setWidth 5, regOp2 := s.cpuregsRs2 i }
    if s.isSbShSw then { t with cpuState := .stmem, memDoRinst := true }
    else if s.isSllSrlSra then { t with cpuState := .shift }
    else { t with memDoRinst := s.memDoPrefetch, cpuState := .exec }

def exec (t : Vars) : Vars :=
  let t := { t with regOut := s.regPc + s.decodedImm }
  if s.isBeqBneBltBgeBltuBgeu then
    { t with
      latchedRd := 0
      latchedStore := s.aluOut0 i
      latchedBranch := s.aluOut0 i
      cpuState := if s.memDone resetn i then .fetch else s.cpuState
      decoderTrigger := if s.aluOut0 i then false else t.decoderTrigger
      setMemDoRinst := s.aluOut0 i }
  else { t with latchedBranch := s.instrJalr, latchedStore := true, latchedStalu := true, cpuState := .fetch }

/-- A shift by `n`; without a shift instruction `reg_op1` stays. -/
def shiftBy (n : ℕ) : Word32 :=
  if s.instrSlli || s.instrSll then s.regOp1 <<< n
  else if s.instrSrli || s.instrSrl then s.regOp1 >>> n
  else if s.instrSrai || s.instrSra then s.regOp1.sshiftRight n
  else s.regOp1

def shift (t : Vars) : Vars :=
  let t := { t with latchedStore := true }
  if s.regSh = 0 then { t with regOut := s.regOp1, memDoRinst := s.memDoPrefetch, cpuState := .fetch }
  else if s.regSh.toNat ≥ 4 then { t with regOp1 := s.shiftBy 4, regSh := s.regSh - 4 }
  else { t with regOp1 := s.shiftBy 1, regSh := s.regSh - 1 }

def stmem (t : Vars) : Vars :=
  if !s.memDoPrefetch || s.memDone resetn i then
    let t :=
      if !s.memDoWdata then
        { t with
          memWordsize := if s.instrSb then 2 else if s.instrSh then 1 else if s.instrSw then 0 else s.memWordsize
          regOp1 := s.regOp1 + s.decodedImm
          setMemDoWdata := true }
      else t
    if !s.memDoPrefetch && s.memDone resetn i then
      { t with cpuState := .fetch, decoderTrigger := true, decoderPseudoTrigger := true }
    else t
  else t

def ldmem (t : Vars) : Vars :=
  let t := { t with latchedStore := true }
  if !s.memDoPrefetch || s.memDone resetn i then
    let t :=
      if !s.memDoRdata then
        { t with
          memWordsize :=
            if s.instrLb || s.instrLbu then 2 else if s.instrLh || s.instrLhu then 1 else if s.instrLw then 0
            else s.memWordsize
          latchedIsLu := s.isLbuLhuLw, latchedIsLh := s.instrLh, latchedIsLb := s.instrLb
          regOp1 := s.regOp1 + s.decodedImm
          setMemDoRdata := true }
      else t
    if !s.memDoPrefetch && s.memDone resetn i then
      { t with
        regOut :=
          if s.latchedIsLu then s.memRdataWord i
          else if s.latchedIsLh then ((s.memRdataWord i).extractLsb 15 0).signExtend 32
          else if s.latchedIsLb then ((s.memRdataWord i).extractLsb 7 0).signExtend 32
          else t.regOut
        decoderTrigger := true, decoderPseudoTrigger := true, cpuState := .fetch }
    else t
  else t

/-- The `case` on `cpu_state`. -/
def fsm (t : Vars) : Vars :=
  match s.cpuState with
  | .trap => { t with trap := true }
  | .fetch => s.fetch t
  | .ldRs1 => s.ldRs1 i t
  | .exec => s.exec resetn i t
  | .shift => s.shift t
  | .stmem => s.stmem resetn i t
  | .ldmem => s.ldmem resetn i t

def misalignedData : Bool :=
  (s.memDoRdata || s.memDoWdata) &&
    ((s.memWordsize = 0 && s.regOp1.extractLsb 1 0 ≠ 0) || (s.memWordsize = 1 && s.regOp1.getLsbD 0))

def misalignedInstr : Bool := s.memDoRinst && s.regPc.getLsbD 0

/-- A bus error now. -/
def busError : Bool := resetn && (s.misalignedData || s.misalignedInstr)

/-- The statements after the `case`. -/
def finish (t : Vars) : Main :=
  let clear := !resetn || s.memDone resetn i
  let timer : Word32 := if s.timer ≠ 0 && s.timer - 1 = 0 then 1 <<< irqTimer else 0
  let error : Word32 := if s.busError resetn && s.catches irqBuserror then 1 <<< irqBuserror else 0
  { t.toMain with
    cpuState := if s.busError resetn && !s.catches irqBuserror then .trap else t.cpuState
    memDoPrefetch := !clear && t.memDoPrefetch
    memDoRinst := t.setMemDoRinst || (!clear && t.memDoRinst)
    memDoRdata := t.setMemDoRdata || (!clear && t.memDoRdata)
    memDoWdata := t.setMemDoWdata || (!clear && t.memDoWdata)
    irqPending := (t.nextIrqPending ||| i.irq ||| timer ||| error) &&& ~~~maskedIrq }

def main : Main :=
  let t := s.defaults resetn i
  s.finish resetn i (if !resetn then reset t else s.fsm resetn i t)

def step : Core where
  toMemTrack := s.memTrack resetn i
  toMemFsm := s.memFsm resetn i
  toDecodeFirst := s.decodeFirst resetn i
  toDecodeSecond := s.decodeSecond resetn i
  toDecodeClass := s.decodeClass resetn
  toMain := s.main resetn i
  memRdataQ := s.memRdataQNext resetn i
  clearPrefetchedHighWordQ := s.clearPrefetchedHighWord resetn
  cpuregs := s.cpuregsNext resetn
  mul := s.mul.step resetn s.pcpiReq
  div := s.div.step resetn s.pcpiReq i.undef.pcpiRd

end Core

end RiscvSoc.Cpu
