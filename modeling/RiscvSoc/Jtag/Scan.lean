import RiscvSoc.Jtag.Run
/-!
# Data register scans

Between Capture-DR and Update-DR the data register holds what was captured, with
the bits of the scan shifted in; 32 bits leave nothing of the former.
-/

namespace RiscvSoc.Jtag

theorem shiftIn_getLsbD (v : Word32) (b : Bool) (k : ℕ) :
    (shiftIn v b).getLsbD k = if k < 31 then v.getLsbD (k + 1) else decide (k = 31) && b := by
  rw [shiftIn, BitVec.getLsbD_append]
  by_cases h : k < 31
  · simp [h, Nat.add_comm]
  · rcases Nat.eq_or_lt_of_le (Nat.le_of_not_lt h) with rfl | hlt
    · simp
    · simp only [h, if_false]
      rw [BitVec.getLsbD_of_ge _ _ (by omega)]
      simp [show k ≠ 31 by omega]

/-- Each shift makes one more bit independent of the word before the scan. -/
theorem foldl_shiftIn_agree (bits : List Bool) (v v' : Word32) (n : ℕ)
    (h : ∀ k, 32 ≤ k + n → v.getLsbD k = v'.getLsbD k) (k : ℕ) (hk : 32 ≤ k + (n + bits.length)) :
    (bits.foldl shiftIn v).getLsbD k = (bits.foldl shiftIn v').getLsbD k := by
  induction bits generalizing v v' n with
  | nil => exact h k hk
  | cons b bits ih =>
    refine ih (shiftIn v b) (shiftIn v' b) (n + 1) (fun j hj => ?_) (by simpa [Nat.add_comm, Nat.add_left_comm] using hk)
    rw [shiftIn_getLsbD, shiftIn_getLsbD]
    split
    · exact h (j + 1) (by omega)
    · rfl

/-- A full scan leaves the bits shifted in, whatever was captured. -/
theorem foldl_shiftIn_full {bits : List Bool} (h : bits.length = 32) (v : Word32) :
    bits.foldl shiftIn v = wordOf bits := by
  refine BitVec.eq_of_getLsbD_eq fun k hk => foldl_shiftIn_agree bits v 0 0 (fun j hj => ?_) k (by omega)
  have hj : 32 ≤ j := hj
  rw [BitVec.getLsbD_of_ge _ _ hj, BitVec.getLsbD_of_ge _ _ hj]

/-- The states between Capture-DR and Update-DR, the latter included. -/
def TapState.inScan : TapState → Bool
  | shiftDr | exit1Dr | pauseDr | exit2Dr | updateDr => true
  | _ => false

/-- `bits` are the bits shifted into an AXI register since its capture. -/
def Scans (d : JtagDtm) (bits : List Bool) : Prop :=
  d.tap.inScan = true → isAxiReg d.irReg = true → ∃ captured, d.drShift = bits.foldl shiftIn captured

/-- The bits of the scan after an edge. -/
def nextBits (d : JtagDtm) (tdi : Bool) (bits : List Bool) : List Bool :=
  match d.tap with
  | .captureDr => []
  | .shiftDr => bits ++ [tdi]
  | _ => bits

theorem isAxiReg_ne_bypass {ir : BitVec 4} (h : isAxiReg ir = true) : ir ≠ irBypass := by
  rintro rfl
  simp [isAxiReg, irBypass, irAxiAddr, irAxiData, irAxiCtrl] at h

theorem irReg_step {d : JtagDtm} (i : DtmIn) (h : d.tap.inScan = true) : (d.step i true).irReg = d.irReg := by
  cases ht : d.tap with
  | shiftDr | exit1Dr | pauseDr | exit2Dr | updateDr =>
    simp only [JtagDtm.step, JtagDtm.regsStep, ht]
    grind
  | testLogicReset | runTestIdle | selectDrScan | captureDr | selectIrScan | captureIr | shiftIr | exit1Ir | pauseIr
  | exit2Ir | updateIr => simp [ht, TapState.inScan] at h

theorem Scans.step {d : JtagDtm} {bits : List Bool} (h : Scans d bits) (i : DtmIn) :
    Scans (d.step i true) (nextBits d i.tdi bits) := by
  intro hin hir
  cases ht : d.tap with
  | captureDr => exact ⟨d.captured i, by simp [JtagDtm.step, JtagDtm.regsStep, ht, nextBits]⟩
  | shiftDr =>
    have hsc : d.tap.inScan = true := by rw [ht]; rfl
    have hir' : isAxiReg d.irReg = true := irReg_step i hsc ▸ hir
    obtain ⟨cap, hcap⟩ := h hsc hir'
    refine ⟨cap, ?_⟩
    simp [JtagDtm.step, JtagDtm.regsStep, ht, isAxiReg_ne_bypass hir', nextBits, hcap]
  | exit1Dr | pauseDr | exit2Dr =>
    have hsc : d.tap.inScan = true := by rw [ht]; rfl
    obtain ⟨cap, hcap⟩ := h hsc (irReg_step i hsc ▸ hir)
    exact ⟨cap, by simpa [JtagDtm.step, JtagDtm.regsStep, ht, nextBits] using hcap⟩
  | updateDr | testLogicReset | runTestIdle | selectDrScan | selectIrScan | captureIr | shiftIr | exit1Ir | pauseIr
  | exit2Ir | updateIr =>
    simp only [JtagDtm.step, ht, nextState] at hin
    exfalso
    revert hin
    simp only [Bool.not_true, Bool.false_eq_true, if_false]
    split <;> simp [TapState.inScan]

/-- In Update-DR a full scan is in the data register. -/
theorem Scans.word {d : JtagDtm} {bits : List Bool} (h : Scans d bits) (ht : d.tap = .updateDr)
    (hir : isAxiReg d.irReg = true) (hlen : bits.length = 32) : d.drShift = wordOf bits := by
  obtain ⟨cap, hcap⟩ := h (by rw [ht]; rfl) hir
  rw [hcap, foldl_shiftIn_full hlen]

end RiscvSoc.Jtag
