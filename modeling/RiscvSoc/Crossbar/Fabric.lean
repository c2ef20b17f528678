import RiscvSoc.Crossbar.ReadRun
import RiscvSoc.Slaves.Bank
/-!
# The crossbar with its slaves

The nine slaves of a bank behind the crossbar, on one clock and one reset. A run
of the whole is a run of the crossbar whose slave ports are driven by the bank.
-/

namespace RiscvSoc.Crossbar

open Sync

structure Fabric (bank : Slave → PulseSlave) where
  xbar : AxiLiteXbar
  dev (p : Slave) : (bank p).State

/-- What comes from outside: the masters' requests and the slaves' other pins. -/
structure FabricIn (bank : Slave → PulseSlave) where
  up : Master → LiteReq
  env (p : Slave) : (bank p).Env

namespace Fabric

variable {bank : Slave → PulseSlave}

/-- What slave `p` drives. -/
def devRsp (s : Fabric bank) (p : Slave) : LiteRsp := (bank p).rsp (s.dev p)

def xbarIn (s : Fabric bank) (i : FabricIn bank) : XbarIn := ⟨i.up, s.devRsp⟩

def step (resetn : Bool) (s : Fabric bank) (i : FabricIn bank) : Fabric bank where
  xbar := s.xbar.step resetn (s.xbarIn i)
  dev p := (bank p).step resetn (s.dev p) (i.env p) (s.xbar.req p)

@[simp] theorem xbarIn_up (s : Fabric bank) (i : FabricIn bank) : (s.xbarIn i).up = i.up := rfl

@[simp] theorem xbarIn_down (s : Fabric bank) (i : FabricIn bank) : (s.xbarIn i).down = s.devRsp := rfl

theorem step_xbar (s : Fabric bank) (i : FabricIn bank) : (s.step true i).xbar = s.xbar.step true (s.xbarIn i) := rfl

theorem step_w (s : Fabric bank) (i : FabricIn bank) :
    (s.step true i).xbar.w = s.xbar.w.step (s.xbarIn i) true := rfl

/-- The run of the crossbar in a run of the whole. -/
def xbarRun (r : Run (@step bank)) : Run AxiLiteXbar.step where
  powerUp := r.powerUp.xbar
  resetInp := r.powerUp.xbarIn r.resetInp
  inp n := (r.st n).xbarIn (r.inp n)

@[simp] theorem xbarRun_inp (r : Run (@step bank)) (n : ℕ) :
    (xbarRun r).inp n = (r.st n).xbarIn (r.inp n) := rfl

@[simp] theorem xbarRun_st (r : Run (@step bank)) (n : ℕ) : (xbarRun r).st n = (r.st n).xbar := by
  induction n with
  | zero => rfl
  | succ n ih => rw [Run.st_succ, Run.st_succ, ih, xbarRun_inp]; rfl

section Pulse

variable (s : Fabric bank) (i : FabricIn bank) (p : Slave)

theorem ready : (s.devRsp p).awready = true ∧ (s.devRsp p).wready = true ∧ (s.devRsp p).arready = true :=
  (bank p).ready _

/-- A slave shows a write response after exactly the edges with a write. -/
theorem bvalid_next : ((s.step true i).devRsp p).bvalid = ((s.xbar.req p).awvalid && (s.xbar.req p).wvalid) :=
  (bank p).bvalid_step _ _ _

theorem rvalid_next : ((s.step true i).devRsp p).rvalid = (s.xbar.req p).arvalid := (bank p).rvalid_step _ _ _

end Pulse

end Fabric

end RiscvSoc.Crossbar
