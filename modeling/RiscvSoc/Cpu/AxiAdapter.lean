import RiscvSoc.Axi
import RiscvSoc.Cpu.Assertions
/-!
# The core on the AXI4-Lite bus

`picorv32_axi`: the core and the adapter that turns its requests into transactions. A read is
an address beat and its data, a write is two beats in either order and a response.
-/

namespace RiscvSoc.Cpu

open Sync

structure AxiAdapter where
  ackAwvalid : Bool
  ackArvalid : Bool
  ackWvalid : Bool
  xferDone : Bool
  deriving Inhabited

namespace AxiAdapter

variable (s : AxiAdapter) (m : MemFsm) (i : LiteRsp)

def req : LiteReq where
  awvalid := m.memValid && m.memWstrb ≠ 0 && !s.ackAwvalid
  awaddr := m.memAddr
  wvalid := m.memValid && m.memWstrb ≠ 0 && !s.ackWvalid
  wdata := m.memWdata
  wstrb := m.memWstrb
  bready := m.memValid && m.memWstrb ≠ 0
  arvalid := m.memValid && m.memWstrb = 0 && !s.ackArvalid
  araddr := m.memAddr
  rready := m.memValid && m.memWstrb = 0

def memReady : Bool := i.bvalid || i.rvalid

def step (resetn : Bool) : AxiAdapter :=
  if !resetn then { s with ackAwvalid := false }
  else
    let clear := s.xferDone || !m.memValid
    { ackAwvalid := if clear then false else if i.awready && (s.req m).awvalid then true else s.ackAwvalid
      ackArvalid := if clear then false else if i.arready && (s.req m).arvalid then true else s.ackArvalid
      ackWvalid := if clear then false else if i.wready && (s.req m).wvalid then true else s.ackWvalid
      xferDone := m.memValid && memReady i }

end AxiAdapter

structure Picorv32Axi where
  core : Core
  adapter : AxiAdapter
  deriving Inhabited

structure AxiIn where
  rsp : LiteRsp
  irq : Word32
  undef : Undef

namespace Picorv32Axi

def coreIn (i : AxiIn) : CoreIn := ⟨AxiAdapter.memReady i.rsp, i.rsp.rdata, i.irq, i.undef⟩

def step (resetn : Bool) (s : Picorv32Axi) (i : AxiIn) : Picorv32Axi where
  core := s.core.step resetn (coreIn i)
  adapter := s.adapter.step s.core.toMemFsm i.rsp resetn

end Picorv32Axi

/-! ## Requests and transactions -/

/-- A handshake on the bus. -/
inductive BusEvent
  | aw (addr : Word32)
  | w (data : Word32) (strb : BitVec 4)
  | b
  | ar (addr : Word32)
  | r (data : Word32)
  deriving DecidableEq, Repr

def busEvents (q : LiteReq) (i : LiteRsp) : List BusEvent :=
  whenFire q.awvalid i.awready (.aw q.awaddr) ++ whenFire q.wvalid i.wready (.w q.wdata q.wstrb) ++
    whenFire q.arvalid i.arready (.ar q.araddr) ++ whenFire i.bvalid q.bready .b ++ whenFire i.rvalid q.rready (.r i.rdata)

/-- A request of the core and its answer. -/
structure Native where
  instr : Bool
  addr : Word32
  wdata : Word32
  wstrb : BitVec 4
  rdata : Word32
  deriving DecidableEq, Repr

/-- The request that is answered in this cycle. -/
def MemFsm.native (m : MemFsm) (i : CoreIn) : Option Native :=
  if m.memValid && i.memReady then some ⟨m.memInstr, m.memAddr, m.memWdata, m.memWstrb, i.memRdata⟩ else none

/-- What the program has of it. -/
def Native.access (q : Native) : Option Rv32.Access :=
  if q.instr then none else some (if q.wstrb = 0 then .read q.addr q.rdata else .write q.addr (Core.lanesOf q.wstrb q.wdata))

/-- The transaction for a request. -/
inductive Carries (q : Native) : List BusEvent → Prop
  | read (h : q.wstrb = 0) : Carries q [.ar q.addr, .r q.rdata]
  | awFirst (h : q.wstrb ≠ 0) : Carries q [.aw q.addr, .w q.wdata q.wstrb, .b]
  | wFirst (h : q.wstrb ≠ 0) : Carries q [.w q.wdata q.wstrb, .aw q.addr, .b]

/-! ## What a slave owes -/

namespace BusEvent

def isAw : BusEvent → Bool
  | .aw _ => true
  | _ => false

def isW : BusEvent → Bool
  | .w _ _ => true
  | _ => false

def isAr : BusEvent → Bool
  | .ar _ => true
  | _ => false

def isR : BusEvent → Bool
  | .r _ => true
  | _ => false

end BusEvent

open BusEvent

/-- After the handshakes `l` a slave may respond to a read. -/
def OwesR (l : List BusEvent) : Prop := l.countP isR < l.countP isAr

/-- Or to a write. -/
def OwesB (l : List BusEvent) : Prop := l.count .b < l.countP isAw ∧ l.count .b < l.countP isW

instance (l : List BusEvent) : Decidable (OwesR l) := inferInstanceAs (Decidable (_ < _))

instance (l : List BusEvent) : Decidable (OwesB l) := inferInstanceAs (Decidable (_ ∧ _))

/-- A slave responds to what it has taken. -/
def Obeys (l : List BusEvent) (i : LiteRsp) : Prop := (i.rvalid = true → OwesR l) ∧ (i.bvalid = true → OwesB l)

/-- As many responses as requests. -/
structure Balanced (l : List BusEvent) : Prop where
  r : l.countP isR = l.countP isAr
  aw : l.count .b = l.countP isAw
  w : l.count .b = l.countP isW

theorem Carries.balanced {q : Native} {t : List BusEvent} (h : Carries q t) : Balanced t := by
  cases h with
  | read => exact ⟨rfl, rfl, rfl⟩
  | awFirst => exact ⟨rfl, rfl, rfl⟩
  | wFirst => exact ⟨rfl, rfl, rfl⟩

theorem Balanced.append {l l' : List BusEvent} (h : Balanced l) (h' : Balanced l') : Balanced (l ++ l') := by
  refine ⟨?_, ?_, ?_⟩
  · rw [List.countP_append, List.countP_append, h.r, h'.r]
  · rw [List.count_append, List.countP_append, h.aw, h'.aw]
  · rw [List.count_append, List.countP_append, h.w, h'.w]

theorem Balanced.obeys {l cur : List BusEvent} {i : LiteRsp} (h : Balanced l) (ho : Obeys (l ++ cur) i) : Obeys cur i := by
  obtain ⟨hr, hb⟩ := ho
  refine ⟨fun hv => ?_, fun hv => ?_⟩
  · have howes := hr hv
    rw [OwesR, List.countP_append, List.countP_append, h.r] at howes
    exact Nat.lt_of_add_lt_add_left howes
  · obtain ⟨haw, hw⟩ := hb hv
    rw [List.count_append, List.countP_append, h.aw] at haw
    rw [List.count_append, List.countP_append, h.w] at hw
    exact ⟨Nat.lt_of_add_lt_add_left haw, Nat.lt_of_add_lt_add_left hw⟩

theorem balanced_flatten {qs : List Native} {txns : List (List BusEvent)} (h : List.Forall₂ Carries qs txns) : Balanced txns.flatten := by
  induction h with
  | nil => exact ⟨rfl, rfl, rfl⟩
  | cons hq _ ih => exact hq.balanced.append ih

/-- `l` is made of transactions for the requests `qs`, and of `cur`. -/
def Transacts (qs : List Native) (l cur : List BusEvent) : Prop :=
  ∃ txns : List (List BusEvent), l = txns.flatten ++ cur ∧ List.Forall₂ Carries qs txns

namespace Transacts

variable {qs : List Native} {l cur : List BusEvent}

theorem append (h : Transacts qs l cur) (es : List BusEvent) : Transacts qs (l ++ es) (cur ++ es) := by
  obtain ⟨txns, rfl, hq⟩ := h
  exact ⟨txns, List.append_assoc _ _ _, hq⟩

theorem close (h : Transacts qs l cur) {q : Native} (hq : Carries q cur) : Transacts (qs ++ [q]) l [] := by
  obtain ⟨txns, rfl, hqs⟩ := h
  exact ⟨txns ++ [cur], by simp, List.rel_append hqs (.cons hq .nil)⟩

theorem obeys (h : Transacts qs l cur) {i : LiteRsp} (ho : Obeys l i) : Obeys cur i := by
  obtain ⟨txns, rfl, hqs⟩ := h
  exact (balanced_flatten hqs).obeys ho

end Transacts

end RiscvSoc.Cpu
