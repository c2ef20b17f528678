import RiscvSoc.Lib.Concat
import RiscvSoc.Slaves.SpiRun
/-!
# SPI transfers

A transfer is 17 periods of the divider with the slave selected. Each period but the last
ends with an edge of SCLK. The mode says which of the edges capture a bit on both sides.
-/

namespace RiscvSoc.SpiMaster

open Sync Pacing

variable {s : SpiMaster} {i : SpiIn}

/-! ## The edges of a byte -/

/-- The bits that have left the shift register after `k` edges of SCLK. -/
def shifts (cpha : Bool) (k : ℕ) : ℕ := if cpha then (k - 1) / 2 else k / 2

/-- The bits captured after `k` edges. -/
def samples (cpha : Bool) (k : ℕ) : ℕ := if cpha then k / 2 else (k + 1) / 2

/-- The edge that captures bit `j`: the odd ones for CPHA = 0, the even ones for CPHA = 1. -/
def captureEdge (cpha : Bool) (j : ℕ) : ℕ := if cpha then 2 * j + 2 else 2 * j + 1

theorem captureEdge_samples {cpha : Bool} {k : ℕ} (h : decide (k % 2 = 1) = cpha) :
    captureEdge cpha (samples cpha k) = k + 1 := by
  subst h
  by_cases hk : k % 2 = 1
  · simp only [captureEdge, samples, hk, decide_true, if_true]
    omega
  · simp only [captureEdge, samples, hk, decide_false, Bool.false_eq_true, if_false]
    omega

/-- In the period that a capture edge ends, and in the one after, the bit is out. -/
theorem shifts_captureEdge (cpha : Bool) (j : ℕ) :
    shifts cpha (captureEdge cpha j - 1) = j ∧ shifts cpha (captureEdge cpha j) = j := by
  cases cpha with
  | false =>
    simp only [shifts, captureEdge, Bool.false_eq_true, if_false]
    omega
  | true =>
    simp only [shifts, captureEdge, if_true]
    omega

theorem samples_le {cpha : Bool} {k : ℕ} (hk : k < 16) (h : decide (k % 2 = 1) = cpha) : samples cpha k ≤ 7 := by
  have hj := captureEdge_samples h
  cases cpha with
  | false =>
    simp only [captureEdge, Bool.false_eq_true, if_false] at hj
    omega
  | true =>
    simp only [captureEdge, if_true] at hj
    omega

theorem captureEdge_le (cpha : Bool) {j : ℕ} (hj : j < 8) : 1 ≤ captureEdge cpha j ∧ captureEdge cpha j ≤ 16 := by
  cases cpha with
  | false =>
    simp only [captureEdge, Bool.false_eq_true, if_false]
    omega
  | true =>
    simp only [captureEdge, if_true]
    omega

section Parity

variable {k : ℕ} {cpha : Bool} (hk : s.edgeCnt.toNat = k) (hc : s.cphaR = cpha)

include hk

theorem isLeadingEdge_eq : s.isLeadingEdge = !decide (k % 2 = 1) := by
  rw [isLeadingEdge, BitVec.getLsbD, Nat.testBit_zero, hk]

include hc

theorem isSampleEdge_iff : s.isSampleEdge = true ↔ decide (k % 2 = 1) = cpha := by
  rw [isSampleEdge, isLeadingEdge_eq hk, hc]
  cases cpha <;> simp

theorem samples_succ : samples cpha (k + 1) = if s.isSampleEdge then samples cpha k + 1 else samples cpha k := by
  rw [if_congr (isSampleEdge_iff hk hc) rfl rfl]
  cases cpha with
  | false =>
    simp only [samples, Bool.false_eq_true, if_false, decide_eq_false_iff_not]
    split_ifs <;> omega
  | true =>
    simp only [samples, if_true, decide_eq_true_eq]
    split_ifs <;> omega

theorem isShiftEdge_iff : s.isShiftEdge = true ↔ shifts cpha (k + 1) = shifts cpha k + 1 := by
  have h0 : s.edgeCnt = 0 ↔ k = 0 := by
    rw [← hk, ← BitVec.toNat_inj]
    rfl
  rw [isShiftEdge, isLeadingEdge_eq hk, hc]
  cases cpha with
  | false =>
    simp only [shifts, Bool.false_eq_true, if_false, Bool.not_not, decide_eq_true_eq]
    omega
  | true =>
    simp only [shifts, if_true, Bool.and_eq_true, Bool.not_eq_true', decide_eq_false_iff_not, decide_eq_true_eq, ne_eq, h0]
    omega

theorem shifts_succ : shifts cpha (k + 1) = if s.isShiftEdge then shifts cpha k + 1 else shifts cpha k := by
  split_ifs with h
  · exact (isShiftEdge_iff hk hc).1 h
  · rw [isShiftEdge_iff hk hc] at h
    cases cpha with
    | false =>
      simp only [shifts, Bool.false_eq_true, if_false] at h ⊢
      omega
    | true =>
      simp only [shifts, if_true] at h ⊢
      omega

end Parity

/-! ## A transfer, period by period -/

/-- A transfer of `tx` after `k` edges of SCLK, where `rx` are the levels of MISO at the
edges that capture. -/
structure Stage (pol pha : Bool) (tx : BitVec 8) (rx : ℕ → Bool) (d : Word32) (k : ℕ) (s : SpiMaster) : Prop where
  state : s.state = .run
  selected : s.csN = false
  done : s.done = false
  irq : s.irqPulse = false
  divider : s.dividerReg = d
  mode : s.cphaR = pha
  edges : s.edgeCnt.toNat = k
  sclk : s.sclk = (pol ^^ decide (k % 2 = 1))
  mosi : s.mosi = (tx <<< shifts pha k).getLsbD 7
  left : ∀ m < 7, s.txShift.getLsbD m = (tx <<< shifts pha k).getLsbD m
  captured : ∀ j < samples pha k, s.rxShift.getLsbD (samples pha k - 1 - j) = rx j

/-- The cycle after a transfer. -/
structure Finished (pol pha : Bool) (rx : ℕ → Bool) (s : SpiMaster) : Prop where
  state : s.state = .idle
  selected : s.csN = true
  done : s.done = true
  irq : s.irqPulse = true
  sclk : s.sclk = pol
  rxdata : ∀ j < 8, s.rxdataReg.getLsbD (7 - j) = rx j

section Stage

variable {pol pha : Bool} {tx : BitVec 8} {rx : ℕ → Bool} {d : Word32} {k : ℕ}

theorem stage_start (rx : ℕ → Bool) (h : Ok s) (hst : s.doStart i.cpu = true) (hw : i.cpu.writes regDivider = false) :
    Stage (i.cpu.wdata.getLsbD 1) (i.cpu.wdata.getLsbD 2) s.txdataReg rx s.dividerReg 0 (s.edge true i) ∧
      (s.edge true i).divCnt = 0#32 := by
  have hs := h.idle_of_doStart hst
  have h0 (pha : Bool) : shifts pha 0 = 0 ∧ samples pha 0 = 0 := by cases pha <;> exact ⟨rfl, rfl⟩
  refine ⟨?_, by simp [fsm_start hs hst]⟩
  constructor
  case divider => exact edge_keeps_divider hw
  case left =>
    intro m hm
    rw [edge_txShift, fsm_start hs hst, (h0 _).1, BitVec.shiftLeft_zero]
    simp [hm]
  case captured =>
    intro j hj
    rw [(h0 _).2] at hj
    omega
  all_goals simp [fsm_start hs hst, pre, h0]

theorem Stage.wait (h : Stage pol pha tx rx d k s) (ht : s.tick = false) (hw : i.cpu.writes regDivider = false) :
    Stage pol pha tx rx d k (s.edge true i) := by
  have hs := h.state
  constructor
  case divider => exact (edge_keeps_divider hw).trans h.divider
  case left =>
    rw [edge_txShift, fsm_wait hs ht]
    exact h.left
  case captured =>
    rw [edge_rxShift, fsm_wait hs ht]
    exact h.captured
  case state | selected | done | irq | mode | edges | sclk | mosi =>
    simp [fsm_wait hs ht, pre, h.state, h.selected, h.done, h.mode, h.edges, h.sclk, h.mosi]

theorem Stage.edge (h : Stage pol pha tx rx d k s) (ht : s.tick = true) (hk : k < 16)
    (hrx : ∀ j, captureEdge pha j = k + 1 → i.miso = rx j) (hw : i.cpu.writes regDivider = false) :
    Stage pol pha tx rx d (k + 1) (s.edge true i) := by
  have hs := h.state
  have he : s.edgeCnt ≠ 16 := by
    intro he
    have h16 := h.edges
    rw [he] at h16
    change 16 = k at h16
    omega
  constructor
  case divider => exact (edge_keeps_divider hw).trans h.divider
  case left =>
    intro m hm
    rw [edge_txShift, fsm_edge hs ht he, shifts_succ h.edges h.mode]
    dsimp only
    split_ifs with hsh
    · cases m with
      | zero =>
        rw [Concat.shiftLeft_succ_zero, Concat.shiftIn_zero]
        rfl
      | succ m => rw [Concat.shiftLeft_succ_succ _ _ (by omega), Concat.shiftIn_succ _ _ (by omega), h.left m (by omega)]
    · exact h.left m hm
  case captured =>
    rw [edge_rxShift, fsm_edge hs ht he, samples_succ h.edges h.mode]
    dsimp only
    split_ifs with hsa
    · have hcap := (isSampleEdge_iff h.edges h.mode).1 hsa
      rw [hrx _ (captureEdge_samples hcap)]
      exact Concat.shiftIn_bits h.captured (samples_le hk hcap)
    · exact h.captured
  case mosi =>
    rw [edge_mosi, fsm_edge hs ht he, shifts_succ h.edges h.mode]
    dsimp only
    split_ifs with hsh
    · rw [Concat.shiftLeft_succ_succ _ _ (by omega), h.left 6 (by omega)]
    · exact h.mosi
  case edges =>
    rw [edge_edgeCnt, fsm_edge hs ht he]
    rw [← h.edges]
    exact Counters.toNat_succ (by rw [h.edges]; omega)
  case sclk =>
    have hpar : decide ((k + 1) % 2 = 1) = !decide (k % 2 = 1) := by
      by_cases hp : k % 2 = 1
      · simp [hp, show (k + 1) % 2 = 0 by omega]
      · simp [hp, show (k + 1) % 2 = 1 by omega]
    rw [edge_sclk, fsm_edge hs ht he, hpar]
    simp [h.sclk]
  case state | selected | done | irq | mode  =>
    simp [fsm_edge hs ht he, pre, h.state, h.selected, h.done, h.mode]

theorem Stage.finish (h : Stage pol pha tx rx d 16 s) (ht : s.tick = true) : Finished pol pha rx (s.edge true i) := by
  have hs := h.state
  have he : s.edgeCnt = 16 := BitVec.eq_of_toNat_eq h.edges
  constructor
  case rxdata =>
    intro j hj
    rw [edge_rxdataReg, fsm_finish hs ht he]
    have h8 : samples pha 16 = 8 := by cases pha <;> rfl
    have hj' := h.captured j (by omega)
    rwa [h8] at hj'
  case sclk => simp [fsm_finish hs ht he, pre, h.sclk]
  case state | selected | done | irq => simp [fsm_finish hs ht he]

end Stage

/-! ## The law of a transfer -/

/-- The period of the divider at a START in cycle `t`. -/
def period (r : Run edge) (t : ℕ) : ℕ := (r.st t).dividerReg.toNat

/-- The cycle that edge `k` of SCLK ends, in a transfer started in cycle `t`. -/
def edgeCycle (r : Run edge) (t k : ℕ) : ℕ := t + k * period r t

/-- CPOL and CPHA as START brings them. -/
def cpol (r : Run edge) (t : ℕ) : Bool := (r.inp t).cpu.wdata.getLsbD 1
def cpha (r : Run edge) (t : ℕ) : Bool := (r.inp t).cpu.wdata.getLsbD 2

/-- The cycle that the capture of bit `j` ends. -/
def captureCycle (r : Run edge) (t j : ℕ) : ℕ := edgeCycle r t (captureEdge (cpha r t) j)

section Run

variable {r : Run edge} {t : ℕ}

theorem period_pos (r : Run edge) (t : ℕ) : 0 < period r t :=
  Nat.pos_of_ne_zero (Counters.toNat_ne_zero (ok_run r t).divider)

/-- The levels of MISO that a transfer takes in. -/
def misoBit (r : Run edge) (t j : ℕ) : Bool := (r.inp (captureCycle r t j)).miso

theorem edgeCycle_lt (r : Run edge) (t : ℕ) {k k' : ℕ} (h : k < k') : edgeCycle r t k < edgeCycle r t k' :=
  Nat.add_lt_add_left (Nat.mul_lt_mul_of_pos_right h (period_pos r t)) t

theorem edgeCycle_zero (r : Run edge) (t : ℕ) : edgeCycle r t 0 = t := by simp [edgeCycle]

theorem writes_ctrl_of_doStart {j : LiteReq} (h : s.doStart j = true) : j.writes regDivider = false := by
  simp only [doStart, LiteReq.writes, Bool.and_eq_true, decide_eq_true_eq] at h
  simp [LiteReq.writes, h, regCtrl, regDivider]

/-- A transfer during which DIVIDER is left alone, period by period. -/
theorem stages (hst : (r.st t).doStart (r.inp t).cpu = true)
    (hdiv : ∀ n, t < n → n < edgeCycle r t 17 → (r.inp n).cpu.writes regDivider = false) :
    (∀ k < 17, ∀ c < period r t,
        Stage (cpol r t) (cpha r t) (r.st t).txdataReg (misoBit r t) (r.st t).dividerReg k
          (r.st (t + 1 + (k * period r t + c)))) ∧
      Finished (cpol r t) (cpha r t) (misoBit r t) (r.st (edgeCycle r t 17 + 1)) := by
  have hd := (ok_run r t).divider
  have hpos := period_pos r t
  have htick {k : ℕ} {s : SpiMaster} (h : Stage (cpol r t) (cpha r t) (r.st t).txdataReg (misoBit r t)
      (r.st t).dividerReg k s) : s.tick = true ↔ s.divCnt.toNat + 1 = (r.st t).dividerReg.toNat := by
    rw [tick_iff (by rw [h.divider]; exact hd), h.divider]
  obtain ⟨h0, hcnt0⟩ := stage_start (misoBit r t) (ok_run r t) hst (writes_ctrl_of_doStart hst)
  -- the 17th tick ends the last stage and leads to none
  obtain ⟨hin, -⟩ := grid_divided r divCnt tick (a := t + 1) (K := 17)
    (P := fun k s => k < 17 →
      Stage (cpol r t) (cpha r t) (r.st t).txdataReg (misoBit r t) (r.st t).dividerReg k s) hd
    (fun k hk s h => htick (h hk)) ⟨fun _ => h0, hcnt0⟩
    (fun k hk n hn hn' h ht => by
      have hw := hdiv n (by omega) (by rw [edgeCycle, period]; omega)
      exact ⟨fun _ => (h hk).wait ht hw, by rw [r.st_succ, edge_divCnt, fsm_wait (h hk).state ht]; rfl⟩)
    (fun k hk n hn h ht => by
      have hcyc : n = edgeCycle r t (k + 1) := by
        rw [edgeCycle, period]
        omega
      refine ⟨fun hk' => (h hk).edge ht (by omega) (fun j hj => ?_) (hdiv n ?_ ?_), divCnt_tick (h hk).state ht⟩
      · rw [misoBit, captureCycle, hj, hcyc]
      · have hlt := edgeCycle_lt r t (Nat.succ_pos k)
        rwa [edgeCycle_zero, ← hcyc] at hlt
      · exact hcyc ▸ edgeCycle_lt r t (by omega))
  refine ⟨fun k hk c hc => (hin k hk c hc).1 hk, ?_⟩
  obtain ⟨hlast, ht⟩ := hin 16 (by omega) (period r t - 1) (Nat.sub_one_lt_of_lt hpos)
  have hcyc : t + 1 + (16 * (r.st t).dividerReg.toNat + (period r t - 1)) = edgeCycle r t 17 := slot_last hpos t 16
  rw [hcyc] at hlast ht
  exact (hlast (by omega)).finish (ht.2 (Nat.sub_add_cancel hpos))

/-- What the wires and the registers do in a transfer started in cycle `t`. -/
structure TransferLaw (r : Run edge) (t : ℕ) : Prop where
  /-- The slave is selected for the 17 periods. -/
  select : (r.st t).csN = true ∧ (r.st (edgeCycle r t 17 + 1)).csN = true ∧
    ∀ n, t < n → n ≤ edgeCycle r t 17 → (r.st n).csN = false
  /-- SCLK starts and ends at CPOL and changes at the 16 edges only. -/
  level : (r.st (t + 1)).sclk = cpol r t ∧ (r.st (edgeCycle r t 17 + 1)).sclk = cpol r t
  toggles : ∀ n, t < n → n ≤ edgeCycle r t 17 →
    ((r.st (n + 1)).sclk ≠ (r.st n).sclk ↔ ∃ k, 1 ≤ k ∧ k ≤ 16 ∧ n = edgeCycle r t k)
  /-- MOSI, before and after the edges that capture. -/
  mosi : ∀ j < 8, (r.st (captureCycle r t j)).mosi = (r.st t).txdataReg.getLsbD (7 - j) ∧
    (r.st (captureCycle r t j + 1)).mosi = (r.st t).txdataReg.getLsbD (7 - j)
  rxdata : ∀ j < 8, (r.st (edgeCycle r t 17 + 1)).rxdataReg.getLsbD (7 - j) = (r.inp (captureCycle r t j)).miso
  during : ∀ n, t < n → n ≤ edgeCycle r t 17 → (r.st n).irqPulse = false ∧ (r.st n).done = false
  /-- Until another START there is one pulse and RXDATA stays, and DONE until it is cleared. -/
  after : ∀ n, edgeCycle r t 17 + 1 ≤ n →
    (∀ m, edgeCycle r t 17 + 1 ≤ m → m < n → (r.st m).doStart (r.inp m).cpu = false) →
      (r.st n).csN = true ∧ ((r.st n).irqPulse = true ↔ n = edgeCycle r t 17 + 1) ∧
        (r.st n).rxdataReg = (r.st (edgeCycle r t 17 + 1)).rxdataReg ∧
        ((∀ m, edgeCycle r t 17 + 1 ≤ m → m < n → clearsDone (r.inp m).cpu = false) → (r.st n).done = true)

/-- The registers of a finished transfer until the next. -/
theorem after_finished {e : ℕ} {pol pha : Bool} {rx : ℕ → Bool} (h : Finished pol pha rx (r.st e)) {n : ℕ}
    (hn : ∀ m, e ≤ m → m < e + n → (r.st m).doStart (r.inp m).cpu = false) :
    (r.st (e + n)).state = .idle ∧ ((r.st (e + n)).irqPulse = true ↔ n = 0) ∧
      (r.st (e + n)).rxdataReg = (r.st e).rxdataReg ∧
      ((∀ m, e ≤ m → m < e + n → clearsDone (r.inp m).cpu = false) → (r.st (e + n)).done = true) := by
  refine r.at_rest (fun s => s.state = .idle) (fun s i => s.doStart i.cpu) (fun _ i => clearsDone i.cpu)
    (fun s i hs hno => ?_) h.state h.irq h.done hn
  refine ⟨?_, ?_, ?_, fun hd hc => ?_⟩
  · simp [fsm_idle hs hno, pre, hs]
  · simp [fsm_idle hs hno, pre]
  · rw [edge_rxdataReg, fsm_idle hs hno]
    rfl
  · simp [fsm_idle hs hno, pre, hc, hd]

section Law

variable (hst : (r.st t).doStart (r.inp t).cpu = true)
  (hdiv : ∀ n, t < n → n < edgeCycle r t 17 → (r.inp n).cpu.writes regDivider = false)

include hst hdiv

/-- A cycle of the transfer is one of a period. -/
theorem stage_at {n : ℕ} (hn : t < n) (hn' : n ≤ edgeCycle r t 17) :
    ∃ k < 17, ∃ c < period r t, n = t + 1 + (k * period r t + c) ∧
      Stage (cpol r t) (cpha r t) (r.st t).txdataReg (misoBit r t) (r.st t).dividerReg k (r.st n) := by
  obtain ⟨k, hk, c, hc, hm⟩ := exists_slot (d := period r t) (K := 17) (m := n - (t + 1)) (by
    rw [edgeCycle] at hn'
    omega)
  have heq : n = t + 1 + (k * period r t + c) := by omega
  refine ⟨k, hk, c, hc, heq, ?_⟩
  rw [heq]
  exact (stages hst hdiv).1 k hk c hc

/-- The first cycle of a period. -/
theorem stage_first {k : ℕ} (hk : k < 17) :
    Stage (cpol r t) (cpha r t) (r.st t).txdataReg (misoBit r t) (r.st t).dividerReg k
      (r.st (edgeCycle r t k + 1)) := by
  have h := (stages hst hdiv).1 k hk 0 (period_pos r t)
  rwa [show t + 1 + (k * period r t + 0) = edgeCycle r t k + 1 by rw [edgeCycle]; omega] at h

/-- The last cycle of a period. -/
theorem stage_last {k : ℕ} (hk : k < 17) :
    Stage (cpol r t) (cpha r t) (r.st t).txdataReg (misoBit r t) (r.st t).dividerReg k
      (r.st (edgeCycle r t (k + 1))) := by
  have hpos := period_pos r t
  have h := (stages hst hdiv).1 k hk (period r t - 1) (by omega)
  rwa [slot_last hpos] at h

theorem toggles_iff {n : ℕ} (hn : t < n) (hn' : n ≤ edgeCycle r t 17) :
    (r.st (n + 1)).sclk ≠ (r.st n).sclk ↔ ∃ k, 1 ≤ k ∧ k ≤ 16 ∧ n = edgeCycle r t k := by
  obtain ⟨k, hk, c, hc, heq, hstage⟩ := stage_at hst hdiv hn hn'
  have hend (k' : ℕ) : n = edgeCycle r t k' ↔ c + 1 = period r t ∧ k' = k + 1 := by
    rw [← slot_end_iff hc, heq, edgeCycle]
    omega
  by_cases hlast : c + 1 = period r t
  · have hcyc : n = edgeCycle r t (k + 1) := (hend _).2 ⟨hlast, rfl⟩
    rcases Nat.lt_succ_iff_lt_or_eq.1 hk with hk16 | rfl
    · have hnext := (stage_first hst hdiv (show k + 1 < 17 by omega)).sclk
      rw [← hcyc] at hnext
      have htog : (r.st (n + 1)).sclk ≠ (r.st n).sclk := by
        rw [hnext, hstage.sclk]
        by_cases hp : k % 2 = 1
        · simp [hp, show (k + 1) % 2 = 0 by omega]
        · simp [hp, show (k + 1) % 2 = 1 by omega]
      exact iff_of_true htog ⟨k + 1, by omega, by omega, hcyc⟩
    · have hfin := (stages hst hdiv).2.sclk
      rw [← hcyc] at hfin
      have hno : ¬ (r.st (n + 1)).sclk ≠ (r.st n).sclk := by simp [hfin, hstage.sclk]
      refine iff_of_false hno ?_
      rintro ⟨k', -, hle, hk'⟩
      have := ((hend k').1 hk').2
      omega
  · have hnext := ((stages hst hdiv).1 k hk (c + 1) (by omega)).sclk
    rw [show t + 1 + (k * period r t + (c + 1)) = n + 1 by omega] at hnext
    refine iff_of_false (by simp [hnext, hstage.sclk]) ?_
    rintro ⟨k', -, -, hk'⟩
    exact hlast ((hend k').1 hk').1

theorem mosi_capture {j : ℕ} (hj : j < 8) :
    (r.st (captureCycle r t j)).mosi = (r.st t).txdataReg.getLsbD (7 - j) ∧
      (r.st (captureCycle r t j + 1)).mosi = (r.st t).txdataReg.getLsbD (7 - j) := by
  obtain ⟨h1, h16⟩ := captureEdge_le (cpha r t) hj
  obtain ⟨hbefore, hafter⟩ := shifts_captureEdge (cpha r t) j
  have hbit : ((r.st t).txdataReg <<< j).getLsbD 7 = (r.st t).txdataReg.getLsbD (7 - j) := by
    rw [BitVec.getLsbD_shiftLeft]
    simp [show ¬ 7 < j by omega]
  have hlast := (stage_last hst hdiv (show captureEdge (cpha r t) j - 1 < 17 by omega)).mosi
  have hfirst := (stage_first hst hdiv (show captureEdge (cpha r t) j < 17 by omega)).mosi
  rw [Nat.sub_add_cancel h1, hbefore, hbit] at hlast
  rw [hafter, hbit] at hfirst
  exact ⟨hlast, hfirst⟩

/-- The law holds of every START that is accepted, if DIVIDER is left alone until the end. -/
theorem spiTransferLaw : TransferLaw r t where
  select := by
    have hidle := (ok_run r t).idle_of_doStart hst
    refine ⟨(ok_run r t).csN.2 hidle, (stages hst hdiv).2.selected, fun n hn hn' => ?_⟩
    obtain ⟨k, -, c, -, -, hstage⟩ := stage_at hst hdiv hn hn'
    exact hstage.selected
  level := by
    have hfirst := (stage_first hst hdiv (show 0 < 17 by omega)).sclk
    rw [edgeCycle_zero] at hfirst
    exact ⟨by simpa using hfirst, (stages hst hdiv).2.sclk⟩
  toggles _ hn hn' := toggles_iff hst hdiv hn hn'
  mosi _ hj := mosi_capture hst hdiv hj
  rxdata j hj := (stages hst hdiv).2.rxdata j hj
  during n hn hn' := by
    obtain ⟨k, -, c, -, -, hstage⟩ := stage_at hst hdiv hn hn'
    exact ⟨hstage.irq, hstage.done⟩
  after n hn hq := by
    obtain ⟨k, rfl⟩ := Nat.exists_eq_add_of_le hn
    obtain ⟨hidle, hirq, hrx, hdone⟩ := after_finished (stages hst hdiv).2 hq
    refine ⟨(ok_run r _).csN.2 hidle, hirq.trans ?_, hrx, hdone⟩
    omega

end Law

/-- Registers with any contents before a reset. -/
def anySpi : SpiMaster :=
  ⟨.run, true, true, 7, 3, 9, 1, 2, 3, 4, true, true, true, true, true, false, ⟨false, 0, false, 0, 0⟩⟩

/-- A run with these requests in the first cycles and MISO high. -/
def runOf (reqs : List LiteReq) : Run edge where
  powerUp := anySpi
  resetInp := ⟨.noReq, true⟩
  inp n := ⟨(reqs[n]?).getD .noReq, true⟩

/-- TXDATA 0xA5 in mode 3, with the divider of the reset. -/
theorem spiTransferLaw_mode3 : TransferLaw (runOf [.writeReg regTxdata 0xA5, .writeReg regCtrl 7]) 1 := by
  refine spiTransferLaw (by decide) fun n hn _ => ?_
  obtain ⟨m, rfl⟩ : ∃ m, n = m + 2 := ⟨n - 2, by omega⟩
  rfl

end Run

end RiscvSoc.SpiMaster
