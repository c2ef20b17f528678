import RiscvSoc.Lib.Pacing
import RiscvSoc.Slaves.Spi
/-!
# One edge of the SPI master

The four things an edge does: start a transfer, wait, give an edge of SCLK and finish.
-/

namespace RiscvSoc

/-- What the SPI master sees in a cycle. -/
structure SpiIn where
  cpu : LiteReq
  miso : Bool

namespace SpiMaster

open Sync Pacing

/-- A clock edge. -/
def edge (resetn : Bool) (s : SpiMaster) (i : SpiIn) : SpiMaster := s.step i.cpu resetn i.miso

variable {s : SpiMaster} {i : SpiIn}

/-! ## One edge -/

/-- A write to STATUS that clears DONE. -/
def clearsDone (i : LiteReq) : Bool := i.writes regStatus && i.wdata.getLsbD 1

/-- What precedes the `case`. -/
def pre (s : SpiMaster) (i : LiteReq) : SpiMaster :=
  { s with irqPulse := false, done := if clearsDone i then false else s.done }

def tick (s : SpiMaster) : Bool := s.divCnt = s.dividerReg - 1

@[simp] theorem edge_state : (s.edge true i).state = (s.fsm i.cpu i.miso (s.pre i.cpu)).state := rfl
@[simp] theorem edge_cpolR : (s.edge true i).cpolR = (s.fsm i.cpu i.miso (s.pre i.cpu)).cpolR := rfl
@[simp] theorem edge_cphaR : (s.edge true i).cphaR = (s.fsm i.cpu i.miso (s.pre i.cpu)).cphaR := rfl
@[simp] theorem edge_divCnt : (s.edge true i).divCnt = (s.fsm i.cpu i.miso (s.pre i.cpu)).divCnt := rfl
@[simp] theorem edge_edgeCnt : (s.edge true i).edgeCnt = (s.fsm i.cpu i.miso (s.pre i.cpu)).edgeCnt := rfl
@[simp] theorem edge_txShift : (s.edge true i).txShift = (s.fsm i.cpu i.miso (s.pre i.cpu)).txShift := rfl
@[simp] theorem edge_rxShift : (s.edge true i).rxShift = (s.fsm i.cpu i.miso (s.pre i.cpu)).rxShift := rfl
@[simp] theorem edge_rxdataReg : (s.edge true i).rxdataReg = (s.fsm i.cpu i.miso (s.pre i.cpu)).rxdataReg := rfl
@[simp] theorem edge_busy : (s.edge true i).busy = (s.fsm i.cpu i.miso (s.pre i.cpu)).busy := rfl
@[simp] theorem edge_done : (s.edge true i).done = (s.fsm i.cpu i.miso (s.pre i.cpu)).done := rfl
@[simp] theorem edge_irqPulse : (s.edge true i).irqPulse = (s.fsm i.cpu i.miso (s.pre i.cpu)).irqPulse := rfl
@[simp] theorem edge_sclk : (s.edge true i).sclk = (s.fsm i.cpu i.miso (s.pre i.cpu)).sclk := rfl
@[simp] theorem edge_mosi : (s.edge true i).mosi = (s.fsm i.cpu i.miso (s.pre i.cpu)).mosi := rfl
@[simp] theorem edge_csN : (s.edge true i).csN = (s.fsm i.cpu i.miso (s.pre i.cpu)).csN := rfl

theorem edge_dividerReg : (s.edge true i).dividerReg =
    if i.cpu.writes regDivider then (if i.cpu.wdata = 0 then 1 else i.cpu.wdata) else s.dividerReg := rfl

theorem fsm_start {j : LiteReq} {m : Bool} {t : SpiMaster} (hs : s.state = .idle) (h : s.doStart j = true) :
    s.fsm j m t = { t with
      cpolR := j.wdata.getLsbD 1, cphaR := j.wdata.getLsbD 2
      txShift := s.txdataReg.extractLsb' 0 7, mosi := s.txdataReg.getLsbD 7
      csN := false, sclk := j.wdata.getLsbD 1, edgeCnt := 0, divCnt := 0
      busy := true, done := false, state := .run } := by
  simp [fsm, hs, h]

theorem fsm_idle {j : LiteReq} {m : Bool} {t : SpiMaster} (hs : s.state = .idle) (h : s.doStart j = false) :
    s.fsm j m t = { t with csN := true } := by
  simp [fsm, hs, h]

theorem fsm_wait {j : LiteReq} {m : Bool} {t : SpiMaster} (hs : s.state = .run) (h : s.tick = false) :
    s.fsm j m t = { t with divCnt := s.divCnt + 1 } := by
  have hne : ¬ s.divCnt = s.dividerReg - 1 := by simpa [tick] using h
  simp only [fsm, hs, if_neg hne]

theorem fsm_finish {j : LiteReq} {m : Bool} {t : SpiMaster} (hs : s.state = .run) (h : s.tick = true)
    (he : s.edgeCnt = 16) :
    s.fsm j m t = { t with
      divCnt := 0, csN := true, busy := false, done := true, irqPulse := true, rxdataReg := s.rxShift
      state := .idle } := by
  have heq : s.divCnt = s.dividerReg - 1 := by simpa [tick] using h
  simp only [fsm, hs, if_pos heq, if_pos he]

theorem fsm_edge {j : LiteReq} {m : Bool} {t : SpiMaster} (hs : s.state = .run) (h : s.tick = true)
    (he : s.edgeCnt ≠ 16) :
    s.fsm j m t = { t with
      divCnt := 0, sclk := !s.sclk
      rxShift := if s.isSampleEdge then s.rxShift.extractLsb' 0 7 ++ BitVec.ofBool m else s.rxShift
      txShift := if s.isShiftEdge then s.txShift.extractLsb' 0 6 ++ 0#1 else s.txShift
      mosi := if s.isShiftEdge then s.txShift.getLsbD 6 else s.mosi
      edgeCnt := s.edgeCnt + 1 } := by
  have heq : s.divCnt = s.dividerReg - 1 := by simpa [tick] using h
  simp only [fsm, hs, if_pos heq, if_neg he]

theorem edge_keeps_divider (h : i.cpu.writes regDivider = false) : (s.edge true i).dividerReg = s.dividerReg := by
  simp [edge_dividerReg, h]

theorem tick_iff (hd : s.dividerReg ≠ 0#32) : s.tick = true ↔ s.divCnt.toNat + 1 = s.dividerReg.toNat := by
  rw [tick, decide_eq_true_eq]
  exact Counters.eq_pred_iff hd

theorem divCnt_tick (hs : s.state = .run) (ht : s.tick = true) : (s.edge true i).divCnt = 0#32 := by
  rw [edge_divCnt]
  by_cases he : s.edgeCnt = 16
  · rw [fsm_finish hs ht he]
    rfl
  · rw [fsm_edge hs ht he]
    rfl

/-! ## Reachable states -/

/-- BUSY and the select line follow the state, and the divider is not 0. -/
structure Ok (s : SpiMaster) : Prop where
  busy : s.busy = true ↔ s.state = .run
  csN : s.csN = true ↔ s.state = .idle
  divider : s.dividerReg ≠ 0#32

theorem Ok.reset (s : SpiMaster) (i : SpiIn) : Ok (s.edge false i) :=
  ⟨by simp [edge, step], by simp [edge, step], by simp [edge, step]⟩

theorem Ok.edge (h : Ok s) : Ok (s.edge true i) := by
  have hdiv : (s.edge true i).dividerReg ≠ 0#32 := by
    rw [edge_dividerReg]
    split_ifs with hw hz
    · simp
    · exact hz
    · exact h.divider
  cases hs : s.state with
  | idle =>
    have hbusy : s.busy = false := by
      rw [← Bool.not_eq_true, h.busy, hs]
      simp
    cases hst : s.doStart i.cpu with
    | true => exact ⟨by simp [fsm_start hs hst], by simp [fsm_start hs hst], hdiv⟩
    | false => exact ⟨by simp [fsm_idle hs hst, pre, hbusy, hs], by simp [fsm_idle hs hst, pre, hs], hdiv⟩
  | run =>
    have hbusy : s.busy = true := h.busy.2 hs
    have hcs : s.csN = false := by
      rw [← Bool.not_eq_true, h.csN, hs]
      simp
    cases ht : s.tick with
    | false => exact ⟨by simp [fsm_wait hs ht, pre, hbusy, hs], by simp [fsm_wait hs ht, pre, hcs, hs], hdiv⟩
    | true =>
      by_cases he : s.edgeCnt = 16
      · exact ⟨by simp [fsm_finish hs ht he], by simp [fsm_finish hs ht he], hdiv⟩
      · exact ⟨by simp [fsm_edge hs ht he, pre, hbusy, hs], by simp [fsm_edge hs ht he, pre, hcs, hs], hdiv⟩

theorem ok_run (r : Run edge) (n : ℕ) : Ok (r.st n) := r.invariant Ok.reset (fun _ _ h => h.edge) n

theorem Ok.idle_of_doStart (h : Ok s) {j : LiteReq} (hst : s.doStart j = true) : s.state = .idle := by
  have hbusy : ¬ s.busy = true := by
    simp only [doStart, Bool.and_eq_true, Bool.not_eq_true'] at hst
    simp [hst.2]
  rw [h.busy] at hbusy
  cases hs : s.state with
  | idle => rfl
  | run => exact absurd hs hbusy

end SpiMaster

end RiscvSoc
