import RiscvSoc.Lib.Pacing
import RiscvSoc.Lib.SerialLine
import RiscvSoc.Slaves.Uart
/-!
# The transmitter over a run

A byte that is taken by an idle transmitter is on the line three cycles later, as a frame
of ten bits of `CLKS_PER_BIT` cycles each, if the bit counter gets that far.
-/

namespace RiscvSoc.Uart

open Sync Pacing SerialLine

variable {c : ℕ} {s : Uart} {i : LiteReq} {b : BitVec 8} {k n t : ℕ}

/-! ## One edge -/

@[simp] theorem step_txState : (s.step c true i).txState = (s.txStep c).txState := rfl
@[simp] theorem step_tx : (s.step c true i).tx = (s.txStep c).tx := rfl
@[simp] theorem step_clkCnt : (s.step c true i).clkCnt = (s.txStep c).clkCnt := rfl
@[simp] theorem step_bitIdx : (s.step c true i).bitIdx = (s.txStep c).bitIdx := rfl
@[simp] theorem step_txShift : (s.step c true i).txShift = (s.txStep c).txShift := rfl
@[simp] theorem step_doStartTx : (s.step c true i).doStartTx = s.takesByte i := rfl

theorem step_startByte (h : s.takesByte i = true) : (s.step c true i).startByte = i.wdata.extractLsb' 0 8 := by
  simp [step, h]

theorem takesByte_busy (hs : s.txState ≠ .idle) : s.takesByte i = false := by
  simp [takesByte, txBusy, hs]

theorem txStep_idle (hs : s.txState = .idle) (hp : s.doStartTx = false) :
    (s.txStep c).txState = .idle ∧ (s.txStep c).tx = true := by
  simp [txStep, hs, hp]

theorem txStep_pending (hs : s.txState = .idle) (hp : s.doStartTx = true) :
    (s.txStep c).txState = .start ∧ (s.txStep c).tx = true ∧ (s.txStep c).clkCnt = 0 ∧
      (s.txStep c).txShift = s.startByte := by
  simp [txStep, hs, hp]

/-- The transmitter is at bit `k` of the frame of `b`, or has sent it. -/
inductive Stage (b : BitVec 8) : ℕ → Uart → Prop
  | start {s : Uart} (hs : s.txState = .start) (hb : s.txShift = b) : Stage b 0 s
  | data {s : Uart} {k : ℕ} (hs : s.txState = .data) (hb : s.txShift = b) (hk : k < 8) (hi : s.bitIdx.toNat = k) :
    Stage b (k + 1) s
  | stop {s : Uart} (hs : s.txState = .stop) : Stage b 9 s
  | rest {s : Uart} (hs : s.txState = .idle) (hp : s.doStartTx = false) : Stage b 10 s

namespace Stage

theorem busy (h : Stage b k s) (hk : k < 10) : s.txState ≠ .idle := by
  cases h with
  | start hs | data hs | stop hs => simp [hs]
  | rest => omega

theorem at_rest (h : Stage b 10 s) : s.txState = .idle ∧ s.doStartTx = false := by
  cases h with
  | data _ _ hk => omega
  | rest hs hp => exact ⟨hs, hp⟩

/-- The line shows the bit one cycle later. -/
theorem step_tx (h : Stage b k s) (hk : k < 10) : (s.step c true i).tx = frameBit b k := by
  cases h with
  | start hs hb =>
    simp only [step_tx, txStep, hs]
    split <;> rfl
  | @data _ j hs hb hj hi =>
    rw [frameBit_data b hj, ← hb, ← hi]
    simp only [step_tx, txStep, hs]
    split_ifs <;> rfl
  | stop hs =>
    simp only [step_tx, txStep, hs]
    split <;> rfl
  | rest => omega

theorem wait (h : Stage b k s) (hk : k < 10) (hcnt : s.clkCnt.toNat + 1 < c) (hc : c ≤ 256) :
    Stage b k (s.step c true i) ∧ (s.step c true i).clkCnt.toNat = s.clkCnt.toNat + 1 := by
  have hdone : s.bitDone c = false := by
    simp [bitDone]
    omega
  have hlt : s.clkCnt.toNat + 1 < 256 := by omega
  cases h with
  | start hs hb => exact ⟨.start (by simp [txStep, hs, hdone]) (by simp [txStep, hs, hdone, hb]),
      by simp [txStep, hs, hdone, hlt]⟩
  | data hs hb hj hi => exact ⟨.data (by simp [txStep, hs, hdone]) (by simp [txStep, hs, hdone, hb]) hj
      (by simp [txStep, hs, hdone, hi]), by simp [txStep, hs, hdone, hlt]⟩
  | stop hs => exact ⟨.stop (by simp [txStep, hs, hdone]), by simp [txStep, hs, hdone, hlt]⟩
  | rest => omega

theorem tick (h : Stage b k s) (hk : k < 10) (hcnt : s.clkCnt.toNat + 1 = c) :
    Stage b (k + 1) (s.step c true i) ∧ (s.step c true i).clkCnt.toNat = 0 := by
  have hdone : s.bitDone c = true := by simp [bitDone, hcnt]
  cases h with
  | start hs hb => exact ⟨.data (by simp [txStep, hs, hdone]) (by simp [txStep, hs, hdone, hb]) (by omega)
      (by simp [txStep, hs, hdone]), by simp [txStep, hs, hdone]⟩
  | @data _ j hs hb hj hi =>
    by_cases h7 : s.bitIdx = 7#3
    · obtain rfl : j = 7 := by rw [← hi, h7]; rfl
      exact ⟨.stop (by simp [txStep, hs, hdone, h7]), by simp [txStep, hs, hdone, h7]⟩
    · have hne : j ≠ 7 := fun hj7 => h7 (BitVec.eq_of_toNat_eq (hi.trans hj7))
      have hlt : j + 1 < 8 := by omega
      exact ⟨.data (by simp [txStep, hs, hdone, h7]) (by simp [txStep, hs, hdone, h7, hb]) hlt
        (by simp [txStep, hs, hdone, h7, hi, hlt]), by simp [txStep, hs, hdone, h7]⟩
  | stop hs =>
    have hb : s.txState ≠ .idle := by simp [hs]
    exact ⟨.rest (by simp [txStep, hs, hdone]) (takesByte_busy hb), by simp [txStep, hs, hdone]⟩
  | rest => omega

end Stage

/-! ## Frames -/

variable (r : Run (step c))

/-- The byte written to TXDATA in cycle `n`, if the transmitter takes it. -/
def takes (n : ℕ) : Option (BitVec 8) :=
  if (r.st n).takesByte (r.inp n) then some ((r.inp n).wdata.extractLsb' 0 8) else none

/-- `b` is written in cycle `t` to a transmitter with nothing to send. -/
structure Launches (t : ℕ) (b : BitVec 8) : Prop where
  idle : (r.st t).txState = .idle
  noPulse : (r.st t).doStartTx = false
  write : (r.inp t).writes regTxdata = true
  byte : (r.inp t).wdata.extractLsb' 0 8 = b

variable {r}

theorem Launches.pending (h : Launches r t b) :
    (r.st (t + 1)).txState = .idle ∧ (r.st (t + 1)).doStartTx = true ∧ (r.st (t + 1)).startByte = b ∧
      (r.st (t + 1)).tx = true := by
  have htake : (r.st t).takesByte (r.inp t) = true := by simp [takesByte, txBusy, h.idle, h.write]
  obtain ⟨hidle, htx⟩ := txStep_idle (c := c) h.idle h.noPulse
  rw [r.st_succ]
  exact ⟨hidle, htake, (step_startByte htake).trans h.byte, htx⟩

theorem Launches.begins (h : Launches r t b) :
    Stage b 0 (r.st (t + 2)) ∧ (r.st (t + 2)).clkCnt.toNat = 0 ∧ (r.st (t + 2)).tx = true := by
  obtain ⟨hidle, hp, hb, -⟩ := h.pending
  obtain ⟨hs, htx, hcnt, hshift⟩ := txStep_pending (c := c) hidle hp
  rw [r.st_succ]
  exact ⟨.start hs (hshift.trans hb), by simp [hcnt], htx⟩

/-- The transmitter sends the byte and is at rest again. -/
theorem Launches.stages (h : Launches r t b) (hc : 0 < c) (hc' : c ≤ 256) :
    (∀ k < 10, ∀ j < c, Stage b k (r.st (t + 2 + (k * c + j)))) ∧ Stage b 10 (r.st (t + 2 + 10 * c)) := by
  obtain ⟨h0, hcnt, -⟩ := h.begins
  obtain ⟨hin, hend⟩ := grid r (fun s => s.clkCnt.toNat) (P := Stage b) (a := t + 2) (K := 10) hc ⟨h0, hcnt⟩
    (fun k hk j hj n _ hp hn => by
      obtain ⟨hp', hcnt'⟩ := hp.wait (i := r.inp n) hk (by omega) hc'
      exact ⟨hp', by rw [r.st_succ, hcnt', hn]⟩)
    (fun k hk n _ hp hn => hp.tick hk hn)
  exact ⟨fun k hk j hj => (hin k hk j hj).1, hend⟩

theorem Launches.isFrame (h : Launches r t b) (hc : 0 < c) (hc' : c ≤ 256) :
    IsFrame c (fun n => (r.st n).tx) (t + 3) b := by
  intro k hk j hj
  have hstage := (h.stages hc hc').1 k hk j hj
  dsimp only
  rw [show t + 3 + (k * c + j) = t + 2 + (k * c + j) + 1 by omega, r.st_succ]
  exact hstage.step_tx hk

theorem st_zero_rests : (r.st 0).txState = .idle ∧ (r.st 0).doStartTx = false ∧ (r.st 0).tx = true := ⟨rfl, rfl, rfl⟩

theorem takesByte_eq_true : s.takesByte i = true ↔ i.writes regTxdata = true ∧ s.txState = .idle := by
  simp [takesByte, txBusy]

/-- A pulse to an idle transmitter comes from a launch in the cycle before. -/
theorem exists_launch_of_pending (hs : (r.st n).txState = .idle) (hp : (r.st n).doStartTx = true) :
    ∃ t b, Launches r t b ∧ n = t + 1 := by
  cases n with
  | zero => exact absurd hp (by simp [st_zero_rests])
  | succ m =>
    obtain ⟨hw, hidle⟩ := takesByte_eq_true.1 hp
    refine ⟨m, _, ⟨hidle, ?_, hw, rfl⟩, rfl⟩
    cases hm : (r.st m).doStartTx with
    | false => rfl
    | true =>
      have hstart := (txStep_pending (c := c) hidle hm).1
      rw [r.st_succ, step_txState, hstart] at hs
      cases hs

/-- A transmitter that is busy is sending a byte that was launched. -/
theorem exists_launch (hc : 0 < c) (hc' : c ≤ 256) (hn : (r.st n).txState ≠ .idle) :
    ∃ t b, Launches r t b ∧ t + 2 ≤ n ∧ n < t + 2 + 10 * c := by
  induction n with
  | zero => exact absurd st_zero_rests.1 hn
  | succ n ih =>
    by_cases hs : (r.st n).txState = .idle
    · cases hp : (r.st n).doStartTx with
      | true =>
        obtain ⟨t, b, h, rfl⟩ := exists_launch_of_pending hs hp
        exact ⟨t, b, h, by omega, by omega⟩
      | false =>
        rw [r.st_succ, step_txState, (txStep_idle hs hp).1] at hn
        exact absurd rfl hn
    · obtain ⟨t, b, h, hlo, hhi⟩ := ih hs
      refine ⟨t, b, h, by omega, Nat.lt_of_le_of_ne hhi fun he => ?_⟩
      have hend := (h.stages hc hc').2.at_rest.1
      rw [← he] at hend
      exact hn hend

/-- The line is low only in a frame. -/
theorem low_in_frame (hc : 0 < c) (hc' : c ≤ 256) (hn : (r.st n).tx = false) :
    ∃ t b, Launches r t b ∧ t + 3 ≤ n ∧ n < t + 3 + 9 * c := by
  cases n with
  | zero => exact absurd hn (by simp [st_zero_rests])
  | succ n =>
    have hbusy : (r.st n).txState ≠ .idle := by
      intro hs
      rw [r.st_succ, step_tx] at hn
      simp [txStep, hs] at hn
      split at hn <;> exact absurd hn (by simp)
    obtain ⟨t, b, h, hlo, hhi⟩ := exists_launch hc hc' hbusy
    refine ⟨t, b, h, by omega, Nat.lt_of_not_le fun hle => ?_⟩
    obtain ⟨j, hj⟩ := Nat.exists_eq_add_of_le hle
    have hhigh := h.isFrame hc hc' 9 (by omega) j (by omega)
    dsimp only at hhigh
    rw [show t + 3 + (9 * c + j) = n + 1 by omega, hn] at hhigh
    exact absurd hhigh (by simp)

/-- From a launch to the end of its frame there is no other. -/
theorem Launches.apart {t' : ℕ} {b' : BitVec 8} (h : Launches r t b) (h' : Launches r t' b') (hlt : t < t')
    (hc : 0 < c) (hc' : c ≤ 256) : t + 2 + 10 * c ≤ t' := by
  refine Nat.le_of_not_lt fun hin => ?_
  rcases Nat.eq_or_lt_of_le (Nat.succ_le_of_lt hlt) with rfl | hlt
  · exact absurd h.pending.2.1 (by simp [h'.noPulse])
  · obtain ⟨k, hk, j, hj, hm⟩ := exists_slot (m := t' - (t + 2)) (K := 10) (d := c) (by omega)
    have hbusy := ((h.stages hc hc').1 k hk j hj).busy hk
    rw [show t + 2 + (k * c + j) = t' by omega] at hbusy
    exact hbusy h'.idle

/-! ## Writes to a busy transmitter -/

/-- All registers but those of the port are the same. -/
def SameTx (s s' : Uart) : Prop := ∃ p, s' = { s with port := p }

theorem txStep_port (p : LitePort) : txStep c { s with port := p } = { s.txStep c with port := p } := by
  unfold txStep
  cases s.txState with
  | idle => cases s.doStartTx <;> rfl
  | start | stop =>
    change ite (s.bitDone c = true) _ _ = _
    split_ifs <;> rfl
  | data =>
    change ite (s.bitDone c = true) (ite (s.bitIdx = 7) _ _) _ = _
    split_ifs <;> rfl

/-- What is written to a busy transmitter makes no difference. -/
theorem SameTx.step {s' : Uart} {i' : LiteReq} (h : SameTx s s') (hi : s.txState = .idle → i' = i) :
    SameTx (s.step c true i) (s'.step c true i') := by
  obtain ⟨p, rfl⟩ := h
  refine ⟨(Uart.step c true { s with port := p } i').port, ?_⟩
  by_cases hs : s.txState = .idle
  · obtain rfl := hi hs
    simp only [Uart.step, txStep_port]
    rfl
  · have hnone : s.takesByte i = false := takesByte_busy hs
    have hnone' : takesByte { s with port := p } i' = false := takesByte_busy hs
    simp [Uart.step, txStep_port, hnone, hnone']

theorem sameTx_run {r' : Run (step c)} (hp : r'.powerUp = r.powerUp) (hr : r'.resetInp = r.resetInp)
    (hi : ∀ n, (r.st n).txState = .idle → r'.inp n = r.inp n) (n : ℕ) : SameTx (r.st n) (r'.st n) := by
  induction n with
  | zero =>
    rw [r.st_zero, r'.st_zero, hp, hr]
    exact ⟨_, rfl⟩
  | succ n ih => exact ih.step (hi n)

/-! ## The law of the line -/

/-- What goes over the line in a run: the frames of the bytes launched, each at its time
whatever is written afterwards, and nothing else. -/
structure FrameLaw (r : Run (step c)) : Prop where
  frame : ∀ t b, Launches r t b → (r.st (t + 2)).tx = true ∧ IsFrame c (fun n => (r.st n).tx) (t + 3) b
  apart : ∀ t b t' b', Launches r t b → Launches r t' b' → t < t' → t + 2 + 10 * c ≤ t'
  high : ∀ n, (∀ t b, Launches r t b → ¬ (t + 3 ≤ n ∧ n < t + 3 + 9 * c)) → (r.st n).tx = true
  deaf : ∀ r' : Run (step c), r'.powerUp = r.powerUp → r'.resetInp = r.resetInp →
    (∀ n, (r.st n).txBusy = false → r'.inp n = r.inp n) → ∀ n, (r'.st n).tx = (r.st n).tx

theorem frameLaw (r : Run (step c)) (hc : 1 ≤ c) (hc' : c ≤ 256) : FrameLaw r where
  frame _ _ h := ⟨h.begins.2.2, h.isFrame hc hc'⟩
  apart _ _ _ _ h h' hlt := h.apart h' hlt hc hc'
  high n hn := by
    cases htx : (r.st n).tx with
    | true => rfl
    | false =>
      obtain ⟨t, b, h, hin⟩ := low_in_frame hc hc' htx
      exact absurd hin (hn t b h)
  deaf r' hp hr hi n := by
    obtain ⟨p, h⟩ := sameTx_run hp hr (fun n hn => hi n (by simp [txBusy, hn])) n
    rw [h]

/-- A write of `b` to TXDATA. -/
def writeTx (b : BitVec 8) : LiteReq := ⟨true, 0, true, 0#24 ++ b, 0, true, false, 0, true⟩

/-- Registers as a reset leaves them. -/
def anyUart : Uart := ⟨.idle, 0, 0, 0, false, 0, true, ⟨false, 0, false, 0, 0⟩⟩

/-- A run in which the bytes of `bs` are written in the first cycles, one in each. -/
def burst (c : ℕ) (bs : List (BitVec 8)) : Run (step c) where
  powerUp := anyUart
  resetInp := .noReq
  inp n := (bs[n]?).elim .noReq writeTx

theorem frameLaw_burst : FrameLaw (burst 4 [0x41]) := frameLaw _ (by decide) (by decide)

/-! ## Termination -/

/-- A bit that does not end keeps the transmitter busy. -/
theorem busy_of_stuck (hstuck : s.bitDone c = false) (hs : s.txState ≠ .idle) : (s.txStep c).txState ≠ .idle := by
  cases ht : s.txState with
  | idle => exact absurd ht hs
  | start | data | stop => simp [txStep, ht, hstuck]

theorem busy_forever (hc : ¬ (1 ≤ c ∧ c ≤ 256)) (hn : (r.st n).txState ≠ .idle) (k : ℕ) :
    (r.st (n + k)).txState ≠ .idle := by
  induction k with
  | zero => exact hn
  | succ k ih =>
    have hstuck : (r.st (n + k)).bitDone c = false := by
      have hlt := (r.st (n + k)).clkCnt.isLt
      simp only [bitDone, decide_eq_false_iff_not]
      omega
    exact busy_of_stuck hstuck ih

/-- The transmitter comes to rest in time if the counter can hold a bit, and never
otherwise. -/
theorem returns_iff (r : Run (step c)) (hc : 1 ≤ c) (hn : (r.st n).txState ≠ .idle) :
    (∃ k ≤ 10 * c, (r.st (n + k)).txState = .idle) ↔ c ≤ 256 := by
  constructor
  · rintro ⟨k, -, hk⟩
    exact Nat.le_of_not_lt fun hlt => busy_forever (by omega) hn k hk
  · intro hc'
    obtain ⟨t, b, h, hlo, hhi⟩ := exists_launch hc hc' hn
    refine ⟨t + 2 + 10 * c - n, by omega, ?_⟩
    rw [show n + (t + 2 + 10 * c - n) = t + 2 + 10 * c by omega]
    exact (h.stages hc hc').2.at_rest.1

theorem burst_busy : ((burst c [b]).st 2).txState ≠ .idle := by
  have h : Launches (burst c [b]) 0 _ := ⟨rfl, rfl, rfl, rfl⟩
  exact h.begins.1.busy (by omega)

theorem returns_iff_burst : ∃ k ≤ 10 * 4, ((burst 4 [0x41]).st (2 + k)).txState = .idle :=
  (returns_iff (burst 4 [0x41]) (by decide) burst_busy).2 (by decide)

/-- 50 MHz and 115200 baud. -/
theorem burst_stuck : ¬ ∀ (c : ℕ) (r : Run (step c)) (n : ℕ), 1 ≤ c → (r.st n).txState ≠ .idle →
    ∃ k ≤ 10 * c, (r.st (n + k)).txState = .idle := by
  intro h
  obtain ⟨k, -, hk⟩ := h 434 (burst 434 [0x41]) 2 (by decide) burst_busy
  exact busy_forever (by decide) burst_busy k hk

end RiscvSoc.Uart
