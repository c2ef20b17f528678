import Mathlib.Logic.Function.Basic
import RiscvSoc.Axi
import RiscvSoc.Cpu.Insn
import RiscvSoc.Lib.Rv32.Exec
/-!
# The machine that a program sees

An instruction at a time: the registers, the interrupts and the accesses to memory. What the
program cannot know beforehand, the data that is read and the values of counters and timers,
comes with the step, and so does the choice to take an interrupt.
-/

namespace RiscvSoc.Cpu

open Rv32

/-! ## Instruction memory -/

section Fetch

variable (code : Word32 → Word32) (pc : Word32)

/-- The half of its word that has the address `pc`. -/
def half : BitVec 16 :=
  if pc.getLsbD 1 then (code (wordAddr pc)).extractLsb 31 16 else (code (wordAddr pc)).extractLsb 15 0

/-- The four bytes from `pc` on. -/
def fetchWord : Word32 := half code (pc + 2) ++ half code pc

def insnAt : Insn := .ofWord (fetchWord code pc)

def lengthAt : Word32 := Insn.length (fetchWord code pc)

variable {code pc}

theorem fetchWord_low : (fetchWord code pc).extractLsb 15 0 = half code pc :=
  BitVec.extractLsb'_append_eq_right

theorem half_low (h : pc.getLsbD 1 = false) : half code pc = (code (wordAddr pc)).extractLsb 15 0 := by
  rw [half, h, if_neg Bool.false_ne_true]

theorem half_high (h : pc.getLsbD 1 = true) : half code pc = (code (wordAddr pc)).extractLsb 31 16 := by
  rw [half, if_pos h]

/-- The upper half of the word of `pc`. -/
theorem half_add_two (h : pc.getLsbD 1 = false) : half code (pc + 2) = (code (wordAddr pc)).extractLsb 31 16 := by
  rw [half_high (by rw [getLsbD_one_add_two, h]; rfl), wordAddr_add_two h]

theorem fetchWord_low_half (h : pc.getLsbD 1 = false) : fetchWord code pc = code (wordAddr pc) := by
  rw [fetchWord, half_add_two h, half_low h]
  exact BitVec.extractLsb'_append_extractLsb'

end Fetch

/-! ## State -/

structure Arch where
  pc : Word32
  /-- `x0` to `x31`, `q0` to `q3`. -/
  regs : BitVec 6 → Word32
  irqMask : Word32
  irqActive : Bool
  stopped : Bool

namespace Arch

variable (a : Arch)

def read (r : BitVec 6) : Word32 := if r = 0 then 0 else a.regs r

def x (r : Reg) : Word32 := a.read (r.setWidth 6)

def write (r : BitVec 6) (v : Word32) : Arch :=
  { a with regs := if r ≠ 0 && r.toNat < 36 then Function.update a.regs r v else a.regs }

/-- The instruction of length `len` is done with the result `v`. -/
def result (len : Word32) (rd : Reg) (v : Word32) : Arch := { a.write (rd.setWidth 6) v with pc := a.pc + len }

/-- And without one. -/
def next (len : Word32) : Arch := { a with pc := a.pc + len }

/-- A jump with a link. -/
def jump (len : Word32) (rd : Reg) (target : Word32) : Arch := { a.write (rd.setWidth 6) (a.pc + len) with pc := target }

/-- The error `n` is an interrupt if it may be one now, and stops the machine otherwise. -/
def error (n : ℕ) (a' : Arch) : Arch := if !a.irqMask.getLsbD n && !a.irqActive then a' else { a with stopped := true }

def irqEbreak : ℕ := 1
def irqBuserror : ℕ := 2

/-- One instruction: its access to memory and the state after it. `u` is what comes from
outside. An access that is not aligned is made all the same. -/
def exec (len u : Word32) : Insn → Option Access × Arch
  | .base (.lui rd imm) => (none, a.result len rd imm)
  | .base (.auipc rd imm) => (none, a.result len rd (a.pc + imm))
  | .base (.jal rd imm) => (none, a.jump len rd (a.pc + imm))
  | .base (.jalr rd rs1 imm) => (none, a.jump len rd ((a.x rs1 + imm) &&& ~~~1))
  | .base (.branch op rs1 rs2 imm) => (none, if op.taken (a.x rs1) (a.x rs2) then { a with pc := a.pc + imm } else a.next len)
  | .base (.load op rd rs1 imm) =>
    let addr := a.x rs1 + imm
    let a' := a.result len rd (op.eval addr u)
    (some (.read (wordAddr addr) u), if aligned op.size addr then a' else a.error irqBuserror a')
  | .base (.store op rs1 rs2 imm) =>
    let addr := a.x rs1 + imm
    (some (.write (wordAddr addr) (op.lanes addr (a.x rs2))),
      if aligned op.size addr then a.next len else a.error irqBuserror (a.next len))
  | .base (.imm op rd rs1 imm) => (none, a.result len rd (op.eval (a.x rs1) imm))
  | .base (.shiftImm op rd rs1 shamt) => (none, a.result len rd (op.eval (a.x rs1) shamt.toNat))
  | .base (.alu op rd rs1 rs2) => (none, a.result len rd (op.eval (a.x rs1) (a.x rs2)))
  | .base (.shift op rd rs1 rs2) => (none, a.result len rd (op.eval (a.x rs1) ((a.x rs2).toNat % 32)))
  | .base (.mul op rd rs1 rs2) => (none, a.result len rd (op.eval (a.x rs1) (a.x rs2)))
  | .base (.div op rd rs1 rs2) => (none, a.result len rd (op.eval (a.x rs1) (a.x rs2)))
  | .base (.counter _ rd) | .base (.fence rd) | .waitirq rd | .timer rd _ => (none, a.result len rd u)
  | .base .environment | .illegal => (none, a.error irqEbreak (a.next len))
  | .getq rd q => (none, a.result len rd (if (1#1 ++ q).toNat < 36 then a.regs (1#1 ++ q) else u))
  | .setq q rs1 => (none, { a.write (1#1 ++ q) (a.x rs1) with pc := a.pc + len })
  | .retirq rd => (none, { a.jump len rd (a.regs 32 &&& ~~~1) with irqActive := false })
  | .maskirq rd rs1 => (none, { a.result len rd a.irqMask with irqMask := a.x rs1 })

/-- An interrupt is taken: `q0` holds where to go back to, with bit 0 set or not, `q1` the
interrupts `v`. -/
def irq (bit : Bool) (v : Word32) : Arch :=
  { (a.write 32 (a.pc ||| (BitVec.ofBool bit).setWidth 32)).write 33 v with pc := 0x10, irqActive := true }

/-- A step and the access to memory that is seen of it. -/
inductive Step (code : Word32 → Word32) : Arch → Option Access → Arch → Prop
  | insn (a : Arch) (u : Word32) (h : a.stopped = false) (hu : ∀ rd, insnAt code a.pc = .waitirq rd → u ≠ 0) :
    Step code a (a.exec (lengthAt code a.pc) u (insnAt code a.pc)).1 (a.exec (lengthAt code a.pc) u (insnAt code a.pc)).2
  | irq (a : Arch) (bit : Bool) (v : Word32) (h : a.stopped = false) (ha : a.irqActive = false) (hv : v ≠ 0)
    (hm : v &&& a.irqMask = 0) : Step code a none (a.irq bit v)

/-- The state after a reset; the registers but the stack pointer may hold anything. -/
structure Initial (a : Arch) : Prop where
  pc : a.pc = 0
  sp : a.regs 2 = 0x10020000
  irqMask : a.irqMask = ~~~0
  irqActive : a.irqActive = false
  stopped : a.stopped = false

end Arch

end RiscvSoc.Cpu
