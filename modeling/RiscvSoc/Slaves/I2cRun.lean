import RiscvSoc.Lib.Pacing
import RiscvSoc.Slaves.I2c
/-!
# One edge of the I2C master

A transfer starts, waits and goes on by a phase at each tick of the divider. What a tick
leaves alone, and what holds in every state that is reached.
-/

namespace RiscvSoc

/-- What the I2C master sees in a cycle. -/
structure I2cIn where
  cpu : LiteReq
  pulled : Bool

namespace I2cMaster

open Sync Pacing

/-- A clock edge. -/
def edge (resetn : Bool) (s : I2cMaster) (i : I2cIn) : I2cMaster := s.step i.cpu resetn i.pulled

variable {s t : I2cMaster} {i : I2cIn} {pulled : Bool}

/-- A write to STATUS that clears DONE, and one that clears NACK. -/
def clearsDone (i : LiteReq) : Bool := i.writes regStatus && i.wdata.getLsbD 1
def clearsNack (i : LiteReq) : Bool := i.writes regStatus && i.wdata.getLsbD 2

/-- What precedes the `case`. -/
def pre (s : I2cMaster) (i : LiteReq) : I2cMaster :=
  { s with
    irqPulse := false
    done := if clearsDone i then false else s.done
    nack := if clearsNack i then false else s.nack }

@[simp] theorem edge_state : (s.edge true i).state = (s.fsm i.cpu i.pulled (s.pre i.cpu)).state := rfl
@[simp] theorem edge_divCnt : (s.edge true i).divCnt = (s.fsm i.cpu i.pulled (s.pre i.cpu)).divCnt := rfl
@[simp] theorem edge_phase : (s.edge true i).phase = (s.fsm i.cpu i.pulled (s.pre i.cpu)).phase := rfl
@[simp] theorem edge_bitIdx : (s.edge true i).bitIdx = (s.fsm i.cpu i.pulled (s.pre i.cpu)).bitIdx := rfl
@[simp] theorem edge_addrRw : (s.edge true i).addrRw = (s.fsm i.cpu i.pulled (s.pre i.cpu)).addrRw := rfl
@[simp] theorem edge_txShift : (s.edge true i).txShift = (s.fsm i.cpu i.pulled (s.pre i.cpu)).txShift := rfl
@[simp] theorem edge_rxShift : (s.edge true i).rxShift = (s.fsm i.cpu i.pulled (s.pre i.cpu)).rxShift := rfl
@[simp] theorem edge_rxdataReg : (s.edge true i).rxdataReg = (s.fsm i.cpu i.pulled (s.pre i.cpu)).rxdataReg := rfl
@[simp] theorem edge_rwR : (s.edge true i).rwR = (s.fsm i.cpu i.pulled (s.pre i.cpu)).rwR := rfl
@[simp] theorem edge_sdaDriveLow : (s.edge true i).sdaDriveLow = (s.fsm i.cpu i.pulled (s.pre i.cpu)).sdaDriveLow := rfl
@[simp] theorem edge_scl : (s.edge true i).scl = (s.fsm i.cpu i.pulled (s.pre i.cpu)).scl := rfl
@[simp] theorem edge_busy : (s.edge true i).busy = (s.fsm i.cpu i.pulled (s.pre i.cpu)).busy := rfl
@[simp] theorem edge_done : (s.edge true i).done = (s.fsm i.cpu i.pulled (s.pre i.cpu)).done := rfl
@[simp] theorem edge_nack : (s.edge true i).nack = (s.fsm i.cpu i.pulled (s.pre i.cpu)).nack := rfl
@[simp] theorem edge_irqPulse : (s.edge true i).irqPulse = (s.fsm i.cpu i.pulled (s.pre i.cpu)).irqPulse := rfl

theorem edge_dividerReg : (s.edge true i).dividerReg =
    if i.cpu.writes regDivider then (if i.cpu.wdata = 0 then 1 else i.cpu.wdata) else s.dividerReg := rfl

theorem edge_keeps_divider (h : i.cpu.writes regDivider = false) : (s.edge true i).dividerReg = s.dividerReg := by
  simp [edge_dividerReg, h]

/-! ## The cases of the state machine -/

theorem fsm_start {j : LiteReq} (hs : s.state = .idle) (h : s.doStart j = true) :
    s.fsm j pulled t = { t with
      scl := true, sdaDriveLow := false
      rwR := j.wdata.getLsbD 1, addrRw := s.addrReg ++ BitVec.ofBool (j.wdata.getLsbD 1)
      txShift := s.txdataReg, busy := true, done := false, nack := false, divCnt := 0, phase := false
      state := .start } := by
  simp [fsm, hs, h]

theorem fsm_idle {j : LiteReq} (hs : s.state = .idle) (h : s.doStart j = false) :
    s.fsm j pulled t = { t with scl := true, sdaDriveLow := false } := by
  simp [fsm, hs, h]

theorem fsm_wait {j : LiteReq} (hs : s.state ≠ .idle) (h : s.tick = false) :
    s.fsm j pulled t = { t with divCnt := s.divCnt + 1 } := by
  simp [fsm, hs, h]

theorem fsm_tick {j : LiteReq} (hs : s.state ≠ .idle) (h : s.tick = true) :
    s.fsm j pulled t = s.tickStep pulled { t with divCnt := 0 } := by
  simp [fsm, hs, h]

/-- A tick leaves these alone. -/
theorem tickStep_keeps (s t : I2cMaster) (pulled : Bool) :
    (s.tickStep pulled t).divCnt = t.divCnt ∧ (s.tickStep pulled t).addrRw = t.addrRw ∧
    (s.tickStep pulled t).txShift = t.txShift ∧ (s.tickStep pulled t).rwR = t.rwR := by
  unfold tickStep
  split
  · exact ⟨rfl, rfl, rfl, rfl⟩
  all_goals split_ifs <;> exact ⟨rfl, rfl, rfl, rfl⟩

/-- The last tick of STOP. -/
def lastTick (s : I2cMaster) : Bool := s.state = .stop && s.phase && s.scl

theorem tickStep_last (h : s.lastTick = true) : s.tickStep pulled t =
    { t with sdaDriveLow := false, busy := false, done := true, irqPulse := true, state := .idle } := by
  simp only [lastTick, Bool.and_eq_true, decide_eq_true_eq] at h
  obtain ⟨⟨hs, hp⟩, hscl⟩ := h
  simp [tickStep, hs, hp, hscl]

theorem lastTick_iff : s.lastTick = true ↔ s.state = .stop ∧ s.phase = true ∧ s.scl = true := by
  simp [lastTick, and_assoc]

theorem fsm_last {j : LiteReq} (ht : s.tick = true) (hl : s.lastTick = true) :
    s.fsm j pulled t = { t with
      divCnt := 0, sdaDriveLow := false, busy := false, done := true, irqPulse := true, state := .idle } := by
  have hs : s.state ≠ .idle := by simp [(lastTick_iff.1 hl).1]
  rw [fsm_tick hs ht, tickStep_last hl]

/-- The edge that ends a transfer. -/
theorem edge_last (ht : s.tick = true) (hl : s.lastTick = true) :
    (s.edge true i).state = .idle ∧ (s.edge true i).scl = true ∧ (s.edge true i).sdaDriveLow = false ∧
      (s.edge true i).busy = false := by
  rw [edge_state, edge_scl, edge_sdaDriveLow, edge_busy, fsm_last ht hl]
  exact ⟨rfl, (lastTick_iff.1 hl).2.2, rfl, rfl⟩

/-- A tick that is not the last one leaves the transfer in flight. -/
theorem tickStep_not_last (pulled : Bool) (hs : s.state ≠ .idle) (h : s.lastTick = false) (ht : t.state = s.state) :
    (s.tickStep pulled t).state ≠ .idle ∧ (s.tickStep pulled t).busy = t.busy ∧
      (s.tickStep pulled t).done = t.done ∧ (s.tickStep pulled t).irqPulse = t.irqPulse := by
  unfold tickStep
  split
  case h_1 hst => exact absurd hst hs
  case h_9 hst =>
    split_ifs with hp hscl
    · exact ⟨by simp [lowPhase, ht, hst], rfl, rfl, rfl⟩
    · exact ⟨by simp [ht, hst], rfl, rfl, rfl⟩
    · simp [lastTick, hst, hp, hscl] at h
  all_goals
    rename_i hst
    split_ifs <;> refine ⟨?_, rfl, rfl, rfl⟩ <;> simp [lowPhase, highPhase, ht, hst]

/-! ## Reachable states -/

/-- BUSY follows the state, both lines are released between transfers, and the divider is
not 0. -/
structure Ok (s : I2cMaster) : Prop where
  busy : s.busy = true ↔ s.state ≠ .idle
  released : s.state = .idle → s.scl = true ∧ s.sdaDriveLow = false
  divider : s.dividerReg ≠ 0#32

theorem Ok.reset (s : I2cMaster) (i : I2cIn) : Ok (s.edge false i) :=
  ⟨by simp [edge, step], fun _ => ⟨rfl, rfl⟩, by simp [edge, step]⟩

theorem Ok.edge (h : Ok s) : Ok (s.edge true i) := by
  have hdiv : (s.edge true i).dividerReg ≠ 0#32 := by
    rw [edge_dividerReg]
    split_ifs with hw hz
    · simp
    · exact hz
    · exact h.divider
  by_cases hs : s.state = .idle
  · have hbusy : s.busy = false := by
      rw [← Bool.not_eq_true, h.busy, hs]
      simp
    cases hst : s.doStart i.cpu with
    | true => exact ⟨by simp [fsm_start hs hst], by simp [fsm_start hs hst], hdiv⟩
    | false => exact ⟨by simp [fsm_idle hs hst, pre, hbusy, hs], by simp [fsm_idle hs hst], hdiv⟩
  · have hbusy : s.busy = true := h.busy.2 hs
    cases ht : s.tick with
    | false => exact ⟨by simp [fsm_wait hs ht, pre, hbusy, hs], by simp [fsm_wait hs ht, pre, hs], hdiv⟩
    | true =>
      cases hl : s.lastTick with
      | true =>
        obtain ⟨hidle, hscl, hd, hfree⟩ := edge_last (i := i) ht hl
        exact ⟨by simp only [hfree, hidle]; simp, fun _ => ⟨hscl, hd⟩, hdiv⟩
      | false =>
        have hne := tickStep_not_last i.pulled (t := { s.pre i.cpu with divCnt := 0 }) hs hl rfl
        refine ⟨?_, fun hidle => ?_, hdiv⟩
        · rw [edge_busy, edge_state, fsm_tick hs ht, hne.2.1]
          exact iff_of_true hbusy hne.1
        · rw [edge_state, fsm_tick hs ht] at hidle
          exact absurd hidle hne.1

theorem ok_run (r : Run edge) (n : ℕ) : Ok (r.st n) := r.invariant Ok.reset (fun _ _ h => h.edge) n

theorem Ok.idle_of_doStart (h : Ok s) {j : LiteReq} (hst : s.doStart j = true) : s.state = .idle := by
  by_contra hs
  have hbusy := h.busy.2 hs
  simp [doStart, hbusy] at hst

theorem tick_iff (hd : s.dividerReg ≠ 0#32) : s.tick = true ↔ s.divCnt.toNat + 1 = s.dividerReg.toNat := by
  rw [tick, decide_eq_true_eq]
  exact Counters.eq_pred_iff hd

theorem divCnt_tick (hs : s.state ≠ .idle) (ht : s.tick = true) : (s.edge true i).divCnt = 0#32 := by
  rw [edge_divCnt, fsm_tick hs ht, (tickStep_keeps _ _ _).1]
  rfl

theorem writes_ctrl_of_doStart {j : LiteReq} (h : s.doStart j = true) : j.writes regDivider = false := by
  simp only [doStart, LiteReq.writes, Bool.and_eq_true, decide_eq_true_eq] at h
  simp [LiteReq.writes, h, regCtrl, regDivider]

end I2cMaster

end RiscvSoc
