import RiscvSoc.Lib.Divider
import RiscvSoc.Slaves.I2cTransfer
import RiscvSoc.Slaves.SpiTransfer
/-!
# DIVIDER written during a transfer

Both masters tick when `div_cnt` is at `divider_reg - 1`, whatever has been written to
DIVIDER meanwhile.
-/

namespace RiscvSoc

open Sync Divider

/-- What a request stores in the divider at `offset`. -/
def LiteReq.storesDivider (i : LiteReq) (offset : BitVec 5) : Option Word32 :=
  if i.writes offset then some (if i.wdata = 0 then 1 else i.wdata) else none

theorem LiteReq.getD_storesDivider {i : LiteReq} {offset : BitVec 5} {d : Word32} :
    (i.storesDivider offset).getD d = if i.writes offset then (if i.wdata = 0 then 1 else i.wdata) else d := by
  cases h : i.writes offset <;> simp [storesDivider, h]

/-! ## SPI -/

namespace SpiMaster

variable {s : SpiMaster} {i : SpiIn}

/-- The edges of SCLK that are to come, and the tick after them. -/
def ticksLeft (s : SpiMaster) : ℕ := (16#5 - s.edgeCnt).toNat + 1

theorem ticksLeft_lt (hs : s.state = .run) (ht : s.tick = true) (he : s.edgeCnt ≠ 16) :
    (s.edge true i).ticksLeft < s.ticksLeft := by
  have hne : 16#5 - s.edgeCnt ≠ 0#5 := by
    intro h
    exact he (sub_eq_zero.1 h).symm
  have hpred := Counters.toNat_pred hne
  have hnext : 16#5 - (s.edgeCnt + 1) = 16#5 - s.edgeCnt - 1#5 := (BitVec.sub_sub ..).symm
  rw [ticksLeft, ticksLeft, edge_edgeCnt, fsm_edge hs ht he, hnext]
  omega

variable (r : Run edge)

theorem state_of_busy {n : ℕ} (h : (r.st n).busy = true) : (r.st n).state = .run := (ok_run r n).busy.1 h

theorem state_of_not_busy {n : ℕ} (h : (r.st n).busy = false) : (r.st n).state = .idle := by
  cases hs : (r.st n).state with
  | idle => rfl
  | run => simp [(ok_run r n).busy.2 hs] at h

/-- A transfer is sixteen edges of SCLK and one more tick. -/
def paced : Paced 32 where
  start n := (r.st n).doStart (r.inp n).cpu
  active n := (r.st n).busy
  done n := (r.st n).done
  cnt n := (r.st n).divCnt
  div n := (r.st n).dividerReg
  write n := (r.inp n).cpu.storesDivider regDivider
  left n := (r.st n).ticksLeft
  total := 17
  reset_edge := rfl
  div_ne n := (ok_run r n).divider
  div_edge n := by rw [r.st_succ, edge_dividerReg, LiteReq.getD_storesDivider]
  idle_edge n hb hst := by
    rw [r.st_succ, edge_busy, fsm_idle (state_of_not_busy r hb) hst]
    exact hb
  start_edge n hst := by
    have hs := (ok_run r n).idle_of_doStart hst
    rw [r.st_succ, ticksLeft, edge_busy, edge_divCnt, edge_edgeCnt, fsm_start hs hst]
    exact ⟨rfl, rfl, by simp⟩
  wait_edge n hb hne := by
    have ht : (r.st n).tick = false := by simpa [tick] using hne
    rw [r.st_succ, ticksLeft, edge_busy, edge_divCnt, edge_edgeCnt, fsm_wait (state_of_busy r hb) ht]
    exact ⟨hb, rfl, rfl⟩
  tick_edge n hb heq := by
    have hs := state_of_busy r hb
    have ht : (r.st n).tick = true := by simpa [tick] using heq
    refine ⟨Nat.succ_pos _, ?_⟩
    rw [r.st_succ]
    by_cases he : (r.st n).edgeCnt = 16
    · right
      rw [edge_busy, edge_done, fsm_finish hs ht he]
      exact ⟨rfl, rfl⟩
    · left
      refine ⟨?_, divCnt_tick hs ht, ticksLeft_lt hs ht he⟩
      rw [edge_busy, fsm_edge hs ht he]
      exact hb

end SpiMaster

/-! ## I2C -/

namespace I2cMaster

variable {s t : I2cMaster} {i : I2cIn}

/-- The ticks that are to come, those of a byte that a missing acknowledgement skips included. -/
def ticksLeft (s : I2cMaster) : ℕ :=
  (match s.state with
  | .idle => 0
  | .start => 41
  | .addr => 25 + 2 * s.bitIdx.toNat
  | .addrAck => 23
  | .wdata | .rdata => 7 + 2 * s.bitIdx.toNat
  | .wdataAck | .rdataAck => 5
  | .stop => if s.phase && s.scl then 2 else 3) - s.phase.toNat

theorem ticksLeft_pos (hs : s.state ≠ .idle) : 0 < s.ticksLeft := by
  have hph := s.phase.toNat_le
  unfold ticksLeft
  split
  case h_1 h => exact absurd h hs
  all_goals try split_ifs
  all_goals omega

theorem ticksLeft_lt (pulled : Bool) (hs : s.state ≠ .idle) (hl : s.lastTick = false) (ht : t.state = s.state)
    (hph : t.phase = s.phase) (hidx : t.bitIdx = s.bitIdx) : (s.tickStep pulled t).ticksLeft < s.ticksLeft := by
  have hpred : s.bitIdx ≠ 0 → (s.bitIdx - 1).toNat + 1 = s.bitIdx.toNat := Counters.toNat_pred
  unfold tickStep
  split
  case h_1 h => exact absurd h hs
  case h_9 h =>
    split_ifs with hp hscl
    · simp [ticksLeft, lowPhase, ht, h, hp]
    · simp [ticksLeft, ht, h, hph, hp, hscl]
    · simp [lastTick, h, hp, hscl] at hl
  case h_3 h | h_5 h | h_7 h =>
    split_ifs with hp hz
    · simp [ticksLeft, lowPhase, ht, hidx, h, hp]
    · simp [ticksLeft, highPhase, h, hp, hz]
    · have hlt := hpred hz
      rw [Bool.not_eq_false] at hp
      simp only [ticksLeft, highPhase, ht, h, hp, Bool.toNat_true, Bool.toNat_false]
      omega
  all_goals
    rename_i h
    split_ifs <;> simp_all [ticksLeft, lowPhase, highPhase]

theorem edge_goes_on (hs : s.state ≠ .idle) (ht : s.tick = true) (hl : s.lastTick = false) :
    (s.edge true i).busy = s.busy ∧ (s.edge true i).ticksLeft < s.ticksLeft := by
  obtain ⟨-, hbusy, -⟩ :=
    tickStep_not_last i.pulled (t := { s.pre i.cpu with divCnt := 0 }) hs hl rfl
  have hlt := ticksLeft_lt i.pulled (t := { s.pre i.cpu with divCnt := 0 }) hs hl rfl rfl rfl
  constructor
  · rw [edge_busy, fsm_tick hs ht, hbusy]
    rfl
  · rw [ticksLeft, edge_state, edge_bitIdx, edge_phase, edge_scl, fsm_tick hs ht]
    exact hlt

variable (r : Run edge)

theorem ne_idle_of_busy {n : ℕ} (h : (r.st n).busy = true) : (r.st n).state ≠ .idle := (ok_run r n).busy.1 h

theorem idle_of_not_busy {n : ℕ} (h : (r.st n).busy = false) : (r.st n).state = .idle := by
  by_contra hs
  simp [(ok_run r n).busy.2 hs] at h

/-- A transfer is two ticks for the start, two for each of eighteen bits and three for the
stop. -/
def paced : Paced 32 where
  start n := (r.st n).doStart (r.inp n).cpu
  active n := (r.st n).busy
  done n := (r.st n).done
  cnt n := (r.st n).divCnt
  div n := (r.st n).dividerReg
  write n := (r.inp n).cpu.storesDivider regDivider
  left n := (r.st n).ticksLeft
  total := 41
  reset_edge := rfl
  div_ne n := (ok_run r n).divider
  div_edge n := by rw [r.st_succ, edge_dividerReg, LiteReq.getD_storesDivider]
  idle_edge n hb hst := by
    rw [r.st_succ, edge_busy, fsm_idle (idle_of_not_busy r hb) hst]
    exact hb
  start_edge n hst := by
    have hs := (ok_run r n).idle_of_doStart hst
    rw [r.st_succ, ticksLeft, edge_busy, edge_divCnt, edge_state, edge_phase, fsm_start hs hst]
    exact ⟨rfl, rfl, rfl⟩
  wait_edge n hb hne := by
    have ht : (r.st n).tick = false := by simpa [tick] using hne
    rw [r.st_succ, ticksLeft, edge_busy, edge_divCnt, edge_state, edge_bitIdx, edge_phase, edge_scl,
      fsm_wait (ne_idle_of_busy r hb) ht]
    exact ⟨hb, rfl, rfl⟩
  tick_edge n hb heq := by
    have hs := ne_idle_of_busy r hb
    have ht : (r.st n).tick = true := by simpa [tick] using heq
    refine ⟨ticksLeft_pos hs, ?_⟩
    rw [r.st_succ]
    cases hl : (r.st n).lastTick with
    | true =>
      right
      rw [edge_busy, edge_done, fsm_last ht hl]
      exact ⟨rfl, rfl⟩
    | false =>
      left
      obtain ⟨hbusy, hlt⟩ := edge_goes_on (i := r.inp n) hs ht hl
      exact ⟨hbusy.trans hb, divCnt_tick hs ht, hlt⟩

end I2cMaster

/-! ## The two masters -/

/-- Writes to DIVIDER cannot stall a transfer exactly in the runs in which every write in
flight, in a cycle without a tick, stores more than `div_cnt` is about to be. -/
theorem unstalled_iff_writesAbove (r : Run SpiMaster.edge) (r' : Run I2cMaster.edge) :
    ((SpiMaster.paced r).Unstalled ↔ (SpiMaster.paced r).WritesAbove) ∧
      ((I2cMaster.paced r').Unstalled ↔ (I2cMaster.paced r').WritesAbove) :=
  ⟨(SpiMaster.paced r).unstalled_iff, (I2cMaster.paced r').unstalled_iff⟩

/-- DIVIDER taken from 10 to 2 when `div_cnt` is at 5. -/
def lowered (regDivider regCtrl : BitVec 5) : List LiteReq :=
  [.writeReg regDivider 10, .writeReg regCtrl 1] ++ List.replicate 5 .noReq ++ [.writeReg regDivider 2]

theorem lowered_stalls : ¬ (∀ r : Run SpiMaster.edge, (SpiMaster.paced r).Unstalled) ∧
    ¬ ∀ r : Run I2cMaster.edge, (I2cMaster.paced r).Unstalled := by
  constructor
  · intro h
    have hbelow := (h (SpiMaster.runOf (lowered SpiMaster.regDivider SpiMaster.regCtrl))).below 8 (by decide)
    exact absurd hbelow (by decide)
  · intro h
    have hbelow := (h (I2cMaster.runOf (lowered I2cMaster.regDivider I2cMaster.regCtrl))).below 8 (by decide)
    exact absurd hbelow (by decide)

end RiscvSoc
