import RiscvSoc.Jtag.Scan
import RiscvSoc.Lib.ShiftChain
/-!
# Scans on any path through the TAP

From the capture to the first update after it the TAP may shift, pause and go back to
shifting as it likes. A data register gives out and takes in the bits of such a scan as a
shift register does. The instruction register takes them in but never gives them out.
-/

namespace RiscvSoc.Jtag

open ShiftChain

namespace JtagDtm

/-- An edge out of reset. -/
def edge (s : JtagDtm) (i : DtmIn) : JtagDtm := s.step i true

/-- The TAP is in `upd` after the edges `is`, for the first time. -/
def Arrives (upd : TapState) (s : JtagDtm) (is : List DtmIn) : Prop :=
  (is.foldl edge s).tap = upd ∧ ∀ k < is.length, ((is.take k).foldl edge s).tap ≠ upd

instance (upd : TapState) (s : JtagDtm) (is : List DtmIn) : Decidable (Arrives upd s is) :=
  inferInstanceAs (Decidable (_ ∧ _))

/-- The TAP is not in `upd` before any of the edges `is`. -/
def Avoids (upd : TapState) (s : JtagDtm) (is : List DtmIn) : Prop :=
  ∀ k < is.length, ((is.take k).foldl edge s).tap ≠ upd

instance (upd : TapState) (s : JtagDtm) (is : List DtmIn) : Decidable (Avoids upd s is) :=
  inferInstanceAs (Decidable (∀ k < is.length, ((is.take k).foldl edge s).tap ≠ upd))

theorem Avoids.cons {upd : TapState} {s : JtagDtm} {i : DtmIn} {is : List DtmIn} (h : Avoids upd s (i :: is)) :
    s.tap ≠ upd ∧ Avoids upd (s.edge i) is := by
  refine ⟨h 0 (by simp), fun k hk => ?_⟩
  simpa using h (k + 1) (by simpa using hk)

theorem Arrives.cons {upd : TapState} {s : JtagDtm} {i : DtmIn} {is : List DtmIn} (h : Arrives upd s (i :: is)) :
    s.tap ≠ upd ∧ Arrives upd (s.edge i) is := by
  obtain ⟨hne, ha⟩ := Avoids.cons h.2
  exact ⟨hne, h.1, ha⟩

/-- The bits of TDI at the edges in `st`. -/
def tdis (st : TapState) : JtagDtm → List DtmIn → List Bool := scanIn edge (fun s => s.tap = st) DtmIn.tdi

/-- TDO before the edges in `st`. -/
def tdos (st : TapState) : JtagDtm → List DtmIn → List Bool := scanOut edge (fun s => s.tap = st) tdo

theorem edge_tap (s : JtagDtm) (i : DtmIn) : (s.edge i).tap = nextState s.tap i.tms := by
  simp [edge, step]

/-! ## The data registers -/

section Dr

variable {s : JtagDtm} {i : DtmIn} {is : List DtmIn} {ir : BitVec 4}

/-- Before the update of a data register. -/
structure InDr (ir : BitVec 4) (s : JtagDtm) : Prop where
  tap : s.tap.inScan = true
  before : s.tap ≠ .updateDr
  irReg : s.irReg = ir

theorem within_dr (ht : s.tap.inScan = true) (hir : s.irReg = ir) (ha : Avoids .updateDr s is) :
    Within edge (InDr ir) s is := by
  induction is generalizing s with
  | nil => trivial
  | cons i is ih =>
    obtain ⟨hne, ha⟩ := ha.cons
    refine ⟨⟨ht, hne, hir⟩, ih ?_ ((irReg_step i ht).trans hir) ha⟩
    rw [edge_tap]
    cases hs : s.tap <;> simp [hs, TapState.inScan] at ht hne ⊢ <;> cases i.tms <;> simp [nextState]

theorem ne_bypass (h : isReg ir = true) : ir ≠ irBypass := by
  rintro rfl
  exact absurd h (by decide)

theorem serial_dr (hir : ir ≠ irBypass) :
    Serial edge (fun s => s.tap = .shiftDr) DtmIn.tdi (fun s => bits s.drShift) (InDr ir) where
  shift s i h hs := by
    have hs : s.tap = .shiftDr := by simpa using hs
    have hb : s.irReg ≠ irBypass := h.irReg ▸ hir
    refine Eq.trans ?_ (bits_shift (w := 31) s.drShift i.tdi)
    simp [edge, step, regsStep, hs, hb, shiftIn]
  hold s i h hs := by
    obtain ⟨ht, hne, -⟩ := h
    cases hs' : s.tap <;> simp [hs', TapState.inScan] at ht hne hs <;> simp [edge, step, regsStep, hs']

theorem head_dr (hir : ir ≠ irBypass) (d : JtagDtm) (h : InDr ir d) (_ : decide (d.tap = .shiftDr) = true) :
    (bits d.drShift).head? = some d.tdo := by
  have hb : d.irReg ≠ irBypass := h.irReg ▸ hir
  simp [tdo, hb, bits, List.range_succ_eq_map]

theorem serial_bypass :
    Serial edge (fun s => s.tap = .shiftDr) DtmIn.tdi (fun s => [s.bypassReg]) (InDr irBypass) where
  shift s i h hs := by
    have hs : s.tap = .shiftDr := by simpa using hs
    simp [edge, step, regsStep, hs, h.irReg]
  hold s i h hs := by
    obtain ⟨ht, hne, -⟩ := h
    cases hs' : s.tap <;> simp [hs', TapState.inScan] at ht hne hs <;> simp [edge, step, regsStep, hs']

theorem head_bypass (d : JtagDtm) (h : InDr irBypass d) (_ : decide (d.tap = .shiftDr) = true) :
    [d.bypassReg].head? = some d.tdo := by
  simp [tdo, h.irReg]

/-- The edge out of Capture-DR. -/
theorem edge_captureDr (hc : s.tap = .captureDr) :
    (s.edge i).tap.inScan = true ∧ (s.edge i).irReg = s.irReg ∧ (s.edge i).drShift = s.captured i ∧
      (isReg s.irReg = false → (s.edge i).bypassReg = false) := by
  refine ⟨?_, ?_, ?_, fun hb => ?_⟩
  · rw [edge_tap, hc]
    cases i.tms <;> rfl
  all_goals simp [edge, step, regsStep, hc]
  exact fun h => absurd h (by simp [hb])

theorem tdis_captureDr (is : List DtmIn) (hc : s.tap = .captureDr) :
    tdis .shiftDr s (i :: is) = tdis .shiftDr (s.edge i) is ∧ tdos .shiftDr s (i :: is) = tdos .shiftDr (s.edge i) is := by
  simp [tdis, tdos, scanIn, scanOut, hc]

theorem irReg_run (hw : Within edge (InDr ir) s is) (hir : s.irReg = ir) : (is.foldl edge s).irReg = ir := by
  induction is generalizing s with
  | nil => exact hir
  | cons i is ih => exact ih hw.2 ((irReg_step i hw.1.tap).trans hir)

/-- What an update of a data register does with what is in `dr_shift`. -/
theorem edge_updateDr (ht : s.tap = .updateDr) :
    (s.irReg = irAxiAddr → (s.edge i).addrReg = s.drShift) ∧ (s.irReg = irAxiData → (s.edge i).dataReg = s.drShift) ∧
      (s.irReg = irAxiCtrl →
        (s.edge i).rwTck = s.drShift.getLsbD 1 ∧ (s.edge i).startPulseTck = s.drShift.getLsbD 0) := by
  refine ⟨fun h => ?_, fun h => ?_, fun h => ?_⟩ <;>
    simp [edge, step, regsStep, ht, h, irAxiAddr, irAxiData, irAxiCtrl]

end Dr

/-- A scan of a data register, on any path and of any length: TDO gives what was captured
and then what was shifted in, and the update takes the last 32 bits of it. BYPASS gives a
0 and then TDI, one shift later. -/
theorem dr_scan {s : JtagDtm} {i : DtmIn} {is : List DtmIn} (hc : s.tap = .captureDr)
    (ha : Arrives .updateDr s (i :: is)) :
    let tdis := tdis .shiftDr s (i :: is)
    (isReg s.irReg = true →
        tdos .shiftDr s (i :: is) = (bits (s.captured i) ++ tdis).take tdis.length ∧
        ∃ word : Word32, bits word = (bits (s.captured i) ++ tdis).drop tdis.length ∧
          ∀ j, let s' := ((i :: is).foldl edge s).edge j
            (s.irReg = irAxiAddr → s'.addrReg = word) ∧ (s.irReg = irAxiData → s'.dataReg = word) ∧
              (s.irReg = irAxiCtrl → s'.rwTck = word.getLsbD 1 ∧ s'.startPulseTck = word.getLsbD 0)) ∧
      (s.irReg = irBypass → tdos .shiftDr s (i :: is) = (false :: tdis).take tdis.length) := by
  obtain ⟨ht, hir, hcap, hbyp⟩ := edge_captureDr (i := i) hc
  obtain ⟨hin, hout⟩ := tdis_captureDr (i := i) is hc
  have hw := within_dr ht hir ha.cons.2.2
  rw [hin, hout]
  refine ⟨fun hreg => ⟨?_, ((i :: is).foldl edge s).drShift, ?_, fun j => ?_⟩, fun hb => ?_⟩
  · have h := (serial_dr (ne_bypass hreg)).out_run (head_dr (ne_bypass hreg)) (by simp [bits]) hw
    rwa [hcap] at h
  · have h := (serial_dr (ne_bypass hreg)).reg_run (by simp [bits]) hw
    rwa [hcap] at h
  · have hu := edge_updateDr (i := j) ha.1
    rwa [show ((i :: is).foldl edge s).irReg = s.irReg from irReg_run (s := s.edge i) hw hir] at hu
  · rw [hb] at hw
    have h := serial_bypass.out_run head_bypass (by simp) hw
    rw [hbyp (by rw [hb]; rfl)] at h
    exact h

/-- A chain in Capture-DR, with `ir` in the instruction register. -/
def atCapture (ir : BitVec 4) : JtagDtm := ⟨.captureDr, 0, ir, 0, true, 5, 6, false, false, false⟩

/-- Two bits are shifted in, with a pause between them. -/
def pausedScan : List DtmIn :=
  [(false, false), (true, true), (false, false), (true, false), (false, false), (true, true), (true, false)].map
    fun p => ⟨p.1, p.2, false, false, 0⟩

theorem dr_scan_pausedScan :
    tdos .shiftDr (atCapture irIdcode) pausedScan = [true, true] ∧
      tdos .shiftDr (atCapture irBypass) pausedScan = [false, true] := by
  obtain ⟨hreg, -⟩ := dr_scan (s := atCapture irIdcode) rfl (by decide : Arrives .updateDr _ pausedScan)
  obtain ⟨-, hbyp⟩ := dr_scan (s := atCapture irBypass) rfl (by decide : Arrives .updateDr _ pausedScan)
  exact ⟨(hreg rfl).1.trans (by decide), (hbyp rfl).trans (by decide)⟩

/-! ## The instruction register -/

section Ir

variable {s : JtagDtm} {i : DtmIn} {is : List DtmIn}

/-- Between Capture-IR and Update-IR, neither included. -/
def InIr (s : JtagDtm) : Prop := s.tap = .shiftIr ∨ s.tap = .exit1Ir ∨ s.tap = .pauseIr ∨ s.tap = .exit2Ir

theorem edge_ir (h : s.tap = .captureIr ∨ InIr s) :
    (InIr (s.edge i) ∨ (s.edge i).tap = .updateIr) ∧ (s.edge i).tdo = s.tdo := by
  constructor
  · rcases h with h | h | h | h | h <;> cases ht : i.tms <;> simp [InIr, edge_tap, h, nextState, ht]
  · rcases h with h | h | h | h | h <;> simp [tdo, edge, step, regsStep, h]

theorem edge_updateIr (h : s.tap = .updateIr) : (s.edge i).irReg = s.irShift := by
  simp [edge, step, regsStep, h]

theorem within_ir (hs : InIr s) (ha : Arrives .updateIr s is) : Within edge InIr s is := by
  induction is generalizing s with
  | nil => trivial
  | cons i is ih =>
    obtain ⟨-, ha⟩ := ha.cons
    refine ⟨hs, ?_⟩
    cases is with
    | nil => trivial
    | cons j is => exact ih ((edge_ir (.inr hs)).1.resolve_right ha.cons.1) ha

theorem serial_ir : Serial edge (fun s => s.tap = .shiftIr) DtmIn.tdi (fun s => bits s.irShift) InIr where
  shift s i _ hs := by
    have hs : s.tap = .shiftIr := by simpa using hs
    refine Eq.trans ?_ (bits_shift (w := 3) s.irShift i.tdi)
    simp [edge, step, regsStep, hs]
  hold s i h hs := by
    rcases h with h | h | h | h <;> simp [h] at hs <;> simp [edge, step, regsStep, h]

/-- TDO shows the same bit all along. -/
theorem tdos_ir (hw : Within edge InIr s is) :
    tdos .shiftIr s is = List.replicate (tdis .shiftIr s is).length s.tdo := by
  induction is generalizing s with
  | nil => rfl
  | cons i is ih =>
    have h := ih hw.2
    rw [(edge_ir (.inr hw.1)).2] at h
    rw [tdos, tdis] at h ⊢
    rw [scanOut, scanIn, h]
    split <;> rfl

end Ir

/-- What IEEE 1149.1 asks of a scan of the instruction register: TDO gives the pattern that
was captured and then what was shifted in, and Update-IR takes the last 4 bits of it. -/
structure IrScan (s : JtagDtm) (is : List DtmIn) : Prop where
  tdo : tdos .shiftIr s is = (bits 0b0101#4 ++ tdis .shiftIr s is).take (tdis .shiftIr s is).length
  update : ∀ j, bits ((is.foldl edge s).edge j).irReg =
    (bits 0b0101#4 ++ tdis .shiftIr s is).drop (tdis .shiftIr s is).length

theorem replicate_pattern (c : Bool) (bs : List Bool) :
    List.replicate bs.length c = (bits 0b0101#4 ++ bs).take bs.length ↔ bs.length = 0 ∨ (bs.length = 1 ∧ c = true) := by
  have hp : bits 0b0101#4 = [true, false, true, false] := by decide
  rw [hp]
  match bs with
  | [] => simp
  | [b] => simp
  | b :: b' :: bs => cases c <;> simp [List.replicate_succ]

/-- The update is right on every path. TDO is right only if nothing is shifted, or one bit
while TDO happens to show the first bit of the pattern. -/
theorem ir_scan_iff {s : JtagDtm} {is : List DtmIn} (hc : s.tap = .captureIr) (ha : Arrives .updateIr s is) :
    IrScan s is ↔ (tdis .shiftIr s is).length = 0 ∨ ((tdis .shiftIr s is).length = 1 ∧ s.tdo = true) := by
  cases is with
  | nil => simp [Arrives, hc] at ha
  | cons i is =>
    have ha' := ha.cons.2
    have hin : InIr (s.edge i) := by
      rw [InIr, edge_tap, hc]
      cases i.tms <;> simp [nextState]
    have hcap : (s.edge i).irShift = 0b0101#4 := by simp [edge, step, regsStep, hc]
    have hw := within_ir hin ha'
    have hreg := serial_ir.reg_run (by simp [bits]) hw
    have htdis : tdis .shiftIr s (i :: is) = tdis .shiftIr (s.edge i) is := by simp [tdis, scanIn, hc]
    have htdos : tdos .shiftIr s (i :: is) = tdos .shiftIr (s.edge i) is := by simp [tdos, scanOut, hc]
    have hconst := tdos_ir hw
    rw [(edge_ir (.inl hc)).2] at hconst
    rw [← replicate_pattern, htdis, ← hconst, ← htdos, ← htdis]
    refine ⟨IrScan.tdo, fun h => ⟨h, fun j => ?_⟩⟩
    have hup : (((i :: is).foldl edge s).edge j).irReg = (is.foldl edge (s.edge i)).irShift := edge_updateIr ha.1
    rw [hup, hreg, hcap, htdis]
    rfl

/-- In Capture-IR, on the shortest way there from a reset. -/
def fromReset : JtagDtm :=
  [false, true, true, false].foldl (fun s tms => s.edge ⟨tms, false, false, false, 0⟩)
    ((atCapture irBypass).step ⟨false, false, false, false, 0⟩ false)

/-- A scan of 4 bits, the least significant of `word` first. -/
def irScanOf (word : BitVec 4) : List DtmIn :=
  [(false, false), (false, word[0]), (false, word[1]), (false, word[2]), (true, word[3]), (true, false)].map
    fun p => ⟨p.1, p.2, false, false, 0⟩

/-- In Capture-IR, after a capture of the IDCODE, which leaves TDO at 1. -/
def fromIdcode : JtagDtm :=
  [false, true, false, true, true, true, true, false].foldl (fun s tms => s.edge ⟨tms, false, false, false, 0⟩)
    ((atCapture irBypass).step ⟨false, false, false, false, 0⟩ false)

/-- One bit is shifted, and a pause follows. -/
def oneBitScan : List DtmIn :=
  [(false, false), (true, true), (false, false), (false, false), (true, false), (true, false)].map
    fun p => ⟨p.1, p.2, false, false, 0⟩

theorem ir_scan_iff_oneBit : tdos .shiftIr fromIdcode oneBitScan = [true] ∧ IrScan fromIdcode oneBitScan :=
  ⟨by decide, (ir_scan_iff (by decide) (by decide)).2 (.inr (by decide))⟩

/-- The device after this one gets 0000 in place of the pattern. -/
theorem irScanOf_broken :
    fromReset.tap = .captureIr ∧ Arrives .updateIr fromReset (irScanOf irAxiAddr) ∧
      ¬ IrScan fromReset (irScanOf irAxiAddr) :=
  ⟨rfl, by decide, fun h => absurd h.tdo (by decide)⟩

end JtagDtm

end RiscvSoc.Jtag
