import RiscvSoc.Jtag.Bridge
import RiscvSoc.Jtag.ScanLaw
/-!
# Instructions and the one shift register

All data registers but that of BYPASS share `dr_shift`. A code that is not in the table
shifts it without having loaded it. AXI_CTRL loads it with the status and executes what is
in it at the update, which is what the host shifted in only if the scan is long enough.
-/

namespace RiscvSoc.Jtag.JtagDtm

open ShiftChain

variable {s : JtagDtm} {i : DtmIn} {is : List DtmIn}

/-- Edges with these levels of TMS and TDI, and a bridge that has done nothing. -/
def pins (l : List (Bool × Bool)) : List DtmIn := l.map fun p => ⟨p.1, p.2, false, false, 0⟩

/-! ## Codes without a register -/

/-- BYPASS gives a 0 and then TDI, one shift later. -/
def ActsAsBypass (s : JtagDtm) (is : List DtmIn) : Prop :=
  tdos .shiftDr s is = (false :: tdis .shiftDr s is).take (tdis .shiftDr s is).length

instance (s : JtagDtm) (is : List DtmIn) : Decidable (ActsAsBypass s is) :=
  inferInstanceAs (Decidable (_ = _))

/-- What is in `dr_shift` happens to be a 0 and the bits of the scan, and from the 32nd
bit on the scan repeats itself. -/
structure LooksBypassed (v : Word32) (bs : List Bool) : Prop where
  first : 0 < bs.length → v.getLsbD 0 = false
  held : ∀ k < 31, k + 1 < bs.length → bs[k]? = some (v.getLsbD (k + 1))
  passed : ∀ k, k + 32 < bs.length → bs[k + 31]? = bs[k]?

theorem getElem?_bits_append (v : Word32) (bs : List Bool) (k : ℕ) :
    (bits v ++ bs)[k]? = if k < 32 then some (v.getLsbD k) else bs[k - 32]? := by
  by_cases hk : k < 32
  · rw [List.getElem?_append_left (by simpa using hk), if_pos hk]
    simp [bits, hk]
  · rw [List.getElem?_append_right (by simpa using hk), if_neg hk]
    simp

theorem looksBypassed_iff (v : Word32) (bs : List Bool) :
    (bits v ++ bs).take bs.length = (false :: bs).take bs.length ↔ LooksBypassed v bs := by
  constructor
  · intro h
    have hk (k : ℕ) (hk : k < bs.length) : (if k < 32 then some (v.getLsbD k) else bs[k - 32]?) = (false :: bs)[k]? := by
      rw [← getElem?_bits_append, ← List.getElem?_take_of_lt hk, h, List.getElem?_take_of_lt hk]
    refine ⟨fun h0 => ?_, fun k h31 hn => ?_, fun k hn => ?_⟩
    · simpa using hk 0 h0
    · have h := hk (k + 1) hn
      rw [if_pos (by omega), List.getElem?_cons_succ] at h
      exact h.symm
    · have h := hk (k + 32) hn
      rw [if_neg (by omega), Nat.add_sub_cancel, show k + 32 = k + 31 + 1 from rfl, List.getElem?_cons_succ] at h
      exact h.symm
  · intro h
    refine List.ext_getElem? fun k => ?_
    by_cases hn : k < bs.length
    · rw [List.getElem?_take_of_lt hn, List.getElem?_take_of_lt hn, getElem?_bits_append]
      cases k with
      | zero =>
        rw [if_pos (by omega), h.first hn]
        rfl
      | succ k =>
        rw [List.getElem?_cons_succ]
        split
        · exact (h.held k (by omega) hn).symm
        · obtain ⟨m, rfl⟩ : ∃ m, k = m + 31 := ⟨k - 31, by omega⟩
          rw [h.passed m hn, show m + 31 + 1 - 32 = m by omega]
    · rw [List.getElem?_take_eq_none (by omega), List.getElem?_take_eq_none (by omega)]

/-- A code that is neither in the table nor BYPASS leaves `dr_shift` as earlier scans left
it, and TDO shows that. -/
theorem tdos_unlisted (hc : s.tap = .captureDr) (hir : isReg s.irReg = false) (hb : s.irReg ≠ irBypass)
    (ha : Avoids .updateDr s (i :: is)) :
    tdos .shiftDr s (i :: is) =
      (bits s.drShift ++ tdis .shiftDr s (i :: is)).take (tdis .shiftDr s (i :: is)).length := by
  obtain ⟨ht, hir', hcap, -⟩ := edge_captureDr (i := i) hc
  obtain ⟨hin, hout⟩ := tdis_captureDr (i := i) is hc
  have hkeep : s.captured i = s.drShift := by
    simp only [isReg, Bool.or_eq_false_iff, decide_eq_false_iff_not] at hir
    simp [captured, hir]
  have h := (serial_dr hb).out_run (head_dr hb) (by simp [bits]) (within_dr ht hir' ha.cons.2)
  rwa [hcap, hkeep, ← tdis, ← tdos, ← hin, ← hout] at h

/-- With BYPASS in the instruction register a scan acts as BYPASS, with an undefined code
only if what earlier scans left in `dr_shift` looks like it. -/
theorem actsAsBypass_iff (hc : s.tap = .captureDr) (hir : isReg s.irReg = false) (ha : Avoids .updateDr s is) :
    ActsAsBypass s is ↔ s.irReg = irBypass ∨ LooksBypassed s.drShift (tdis .shiftDr s is) := by
  cases is with
  | nil => exact ⟨fun _ => .inr ⟨by simp [tdis, scanIn], by simp [tdis, scanIn], by simp [tdis, scanIn]⟩, fun _ => rfl⟩
  | cons i is =>
    by_cases hb : s.irReg = irBypass
    · obtain ⟨ht, hir', -, hbyp⟩ := edge_captureDr (i := i) hc
      obtain ⟨hin, hout⟩ := tdis_captureDr (i := i) is hc
      have h := serial_bypass.out_run head_bypass (by simp) (within_dr ht (hir'.trans hb) ha.cons.2)
      rw [hbyp hir, ← tdis, ← tdos, ← hin, ← hout] at h
      exact ⟨fun _ => .inl hb, fun _ => h⟩
    · rw [ActsAsBypass, tdos_unlisted hc hir hb ha, looksBypassed_iff, or_iff_right hb]

/-- From a reset through a capture of the IDCODE and a scan of `ir` into the instruction
register to Capture-DR. -/
def afterIdcode (ir : BitVec 4) : JtagDtm :=
  (pins [(false, false), (true, false), (false, false), (true, false), (true, false),
      (true, false), (true, false), (false, false), (false, false), (false, ir.getLsbD 0), (false, ir.getLsbD 1), (false, ir.getLsbD 2),
      (true, ir.getLsbD 3), (true, false), (true, false), (false, false)]).foldl edge
    ((atCapture irBypass).step ⟨false, false, false, false, 0⟩ false)

/-- Two bits are shifted through. -/
def shortScan : List DtmIn := pins [(false, false), (false, true), (true, true)]

/-- From there on a scan of two bits of the IDCODE, and one of code 5 into the instruction
register. -/
def afterTwoBits : JtagDtm :=
  (pins [(false, false), (false, false), (true, false), (true, false), (true, false), (true, false), (false, false),
      (false, false), (false, true), (false, false), (false, true), (true, false), (true, false), (true, false),
      (false, false)]).foldl edge (afterIdcode irIdcode)

/-- The bits that are next in the IDCODE, and one more. -/
def luckyScan : List DtmIn :=
  pins [(false, false), (false, false), (false, false), (false, true), (false, false), (true, true)]

/-- An undefined code does so for a scan that repeats what was left. -/
theorem actsAsBypass_iff_bypass :
    ActsAsBypass (afterIdcode irBypass) shortScan ∧ afterTwoBits.irReg = 5 ∧ ActsAsBypass afterTwoBits luckyScan := by
  refine ⟨(actsAsBypass_iff (by decide) (by decide) (by decide)).2 (.inl (by decide)), by decide,
    (actsAsBypass_iff (by decide) (by decide) (by decide)).2 (.inr ⟨by decide, by decide, fun k hk => ?_⟩)⟩
  have hlen : (tdis .shiftDr afterTwoBits luckyScan).length = 5 := by decide
  omega

/-- The first bit out is the least significant one of the IDCODE. -/
theorem afterIdcode_stale :
    (afterIdcode 5).tap = .captureDr ∧ (afterIdcode 5).irReg = 5 ∧ Avoids .updateDr (afterIdcode 5) shortScan ∧
      ¬ ActsAsBypass (afterIdcode 5) shortScan := by
  decide

/-! ## The status register that is a command register -/

theorem Avoids.take {upd : TapState} (h : Avoids upd s is) (k : ℕ) : Avoids upd s (is.take k) := by
  intro j hj
  rw [List.length_take] at hj
  rw [List.take_take, Nat.min_eq_left (by omega)]
  exact h j (by omega)

theorem edge_quiet (h : s.tap ≠ .updateDr) : (s.edge i).startPulseTck = false ∧ (s.edge i).rwTck = s.rwTck := by
  cases ht : s.tap with
  | updateDr => exact absurd ht h
  | shiftDr =>
    simp only [edge, step, regsStep, ht]
    by_cases hb : s.irReg = irBypass <;> simp [hb]
  | testLogicReset | runTestIdle | selectDrScan | captureDr | exit1Dr | pauseDr | exit2Dr | selectIrScan | captureIr
  | shiftIr | exit1Ir | pauseIr | exit2Ir | updateIr => simp [edge, step, regsStep, ht]

/-- Before the update a scan gives no command. -/
theorem quiet_run (ha : Avoids .updateDr s is) (hs : s.startPulseTck = false) :
    (is.foldl edge s).startPulseTck = false ∧ (is.foldl edge s).rwTck = s.rwTck := by
  induction is generalizing s with
  | nil => exact ⟨hs, rfl⟩
  | cons i is ih =>
    obtain ⟨hne, ha⟩ := ha.cons
    obtain ⟨hstart, hrw⟩ := edge_quiet (i := i) hne
    obtain ⟨hstart', hrw'⟩ := ih ha hstart
    exact ⟨hstart', hrw'.trans hrw⟩

/-- A bit of `dr_shift` at the update: the host's, or one that was captured. -/
theorem getLsbD_scan (hc : s.tap = .captureDr) (hir : isReg s.irReg = true) (ha : Arrives .updateDr s (i :: is))
    {k : ℕ} (hk : k < 32) :
    ((i :: is).foldl edge s).drShift.getLsbD k =
      ((tdis .shiftDr s (i :: is)).reverse[31 - k]?).getD
        ((s.captured i).getLsbD ((tdis .shiftDr s (i :: is)).length + k)) := by
  obtain ⟨ht, hir', hcap, -⟩ := edge_captureDr (i := i) hc
  obtain ⟨hin, -⟩ := tdis_captureDr (i := i) is hc
  have h := (serial_dr (ne_bypass hir)).reg_run (by simp [bits]) (within_dr ht hir' ha.cons.2.2)
  rw [hcap, ← tdis, ← hin] at h
  generalize tdis .shiftDr s (i :: is) = bs at h ⊢
  have hbit : some (((i :: is).foldl edge s).drShift.getLsbD k) = (bits (s.captured i) ++ bs)[bs.length + k]? := by
    rw [← List.getElem?_drop, ← h]
    simp [bits, hk]
  rw [getElem?_bits_append] at hbit
  split at hbit
  · rw [List.getElem?_eq_none (by simp; omega), Option.getD_none]
    exact Option.some.inj hbit
  · rw [List.getElem?_reverse (by omega), show bs.length - 1 - (31 - k) = bs.length + k - 32 by omega, ← hbit,
      Option.getD_some]

theorem captured_status (hir : s.irReg = irAxiCtrl) (k : ℕ) :
    (s.captured i).getLsbD k = if k = 0 then i.busy else if k = 1 then i.respOk else false := by
  have hcap : s.captured i = 0#30 ++ BitVec.ofBool i.respOk ++ BitVec.ofBool i.busy := by
    simp [captured, hir, irAxiCtrl, irIdcode, irAxiAddr, irAxiData]
  rw [hcap, BitVec.getLsbD_append, BitVec.getLsbD_append]
  rcases k with _ | _ | k
  · simp
  · simp
  · simp

/-- A scan of AXI_CTRL gives a command by bits of the host's alone: START and RW are the
last but 31 and the last but 30 of them, and nothing happens for want of them. -/
structure HostCommand (s : JtagDtm) (is : List DtmIn) : Prop where
  during : ∀ k < is.length,
    ((is.take (k + 1)).foldl edge s).startPulseTck = false ∧ ((is.take (k + 1)).foldl edge s).rwTck = s.rwTck
  start : ∀ j, ((is.foldl edge s).edge j).startPulseTck = ((tdis .shiftDr s is).reverse[31]?).getD false
  rw : ∀ j, ((is.foldl edge s).edge j).rwTck = ((tdis .shiftDr s is).reverse[30]?).getD s.rwTck
  poll : (tdis .shiftDr s is).length < 32 → (∀ b ∈ tdis .shiftDr s is, b = false) → ∀ j (t : BridgeTck) c,
    (t.step true ((is.foldl edge s).edge j).startPulseTck c).startToggleTck = t.startToggleTck

/-- None of the status bits comes to stand where a command bit is read, in a scan of `n`
bits. -/
structure StatusHarmless (n : ℕ) (busy respOk rw : Bool) : Prop where
  none : n = 0 → busy = false ∧ respOk = rw
  one : n = 1 → respOk = false
  some : 1 ≤ n → n < 31 → rw = false

theorem statusHarmless_iff (n : ℕ) (busy respOk rw : Bool) :
    StatusHarmless n busy respOk rw ↔
      (n ≤ 31 → (if n = 0 then busy else if n = 1 then respOk else false) = false) ∧
        (n ≤ 30 → (if n = 0 then respOk else false) = rw) := by
  constructor
  · intro h
    match n with
    | 0 => exact ⟨fun _ => (h.none rfl).1, fun _ => (h.none rfl).2⟩
    | 1 => exact ⟨fun _ => h.one rfl, fun hn => (h.some (by omega) (by omega)).symm⟩
    | n + 2 => exact ⟨fun _ => rfl, fun hn => (h.some (by omega) (by omega)).symm⟩
  · rintro ⟨hs, hr⟩
    refine ⟨?_, ?_, fun h1 hn => ?_⟩
    · rintro rfl
      exact ⟨hs (by omega), hr (by omega)⟩
    · rintro rfl
      exact hs (by omega)
    · have h := hr (by omega)
      rw [if_neg (by omega)] at h
      exact h.symm

theorem getD_eq_getD_iff {α : Type*} (o : Option α) (x y : α) : o.getD x = o.getD y ↔ (o = none → x = y) := by
  cases o <;> simp

/-- What an update of AXI_CTRL does is the host's doing, or harmless status bits'. -/
theorem update_ctrl (hc : s.tap = .captureDr) (hir : s.irReg = irAxiCtrl) (ha : Arrives .updateDr s (i :: is))
    (j : DtmIn) :
    let bs := tdis .shiftDr s (i :: is)
    let s' := ((i :: is).foldl edge s).edge j
    s'.startPulseTck = (bs.reverse[31]?).getD false ∧ s'.rwTck = (bs.reverse[30]?).getD s.rwTck ↔
      StatusHarmless bs.length i.busy i.respOk s.rwTck := by
  have hreg : isReg s.irReg = true := by
    rw [hir]
    rfl
  obtain ⟨hscan, hir', -, -⟩ := edge_captureDr (i := i) hc
  have hrun : ((i :: is).foldl edge s).irReg = irAxiCtrl :=
    (irReg_run (within_dr hscan hir' ha.cons.2.2) hir').trans hir
  obtain ⟨hrw, hstart⟩ := (edge_updateDr (i := j) ha.1).2.2 hrun
  dsimp only
  rw [hstart, hrw, getLsbD_scan hc hreg ha (by omega), getLsbD_scan hc hreg ha (by omega), statusHarmless_iff,
    getD_eq_getD_iff, getD_eq_getD_iff, captured_status hir, captured_status hir]
  simp

theorem hostCommand_iff (hc : s.tap = .captureDr) (hir : s.irReg = irAxiCtrl) (ha : Arrives .updateDr s (i :: is)) :
    HostCommand s (i :: is) ↔ StatusHarmless (tdis .shiftDr s (i :: is)).length i.busy i.respOk s.rwTck := by
  constructor
  · intro h
    exact (update_ctrl hc hir ha i).1 ⟨h.start i, h.rw i⟩
  · intro h
    have hup (j : DtmIn) := (update_ctrl hc hir ha j).2 h
    refine ⟨fun k _ => ?_, fun j => (hup j).1, fun j => (hup j).2, fun hlt _ j t c => ?_⟩
    · obtain ⟨hne, hav⟩ := Avoids.cons ha.2
      obtain ⟨hstart, hrw⟩ := edge_quiet (i := i) hne
      obtain ⟨hstart', hrw'⟩ := quiet_run (hav.take k) hstart
      exact ⟨hstart', hrw'.trans hrw⟩
    · have hstart := (hup j).1
      rw [List.getElem?_eq_none (by simpa using Nat.le_of_lt_succ hlt), Option.getD_none] at hstart
      simp only [BridgeTck.step, hstart]
      rfl

/-- A bridge in these states. -/
def status (busy respOk : Bool) (l : List (Bool × Bool)) : List DtmIn := l.map fun p => ⟨p.1, p.2, busy, respOk, 0⟩

/-- After a reset and a scan of 32 bits that starts a write, again in Capture-DR. -/
def pollCtrl : JtagDtm :=
  (pins ([(false, false), (false, true)] ++ List.replicate 30 (false, false) ++
      [(true, false), (true, false), (true, false), (false, false)])).foldl edge (afterIdcode irAxiCtrl)

/-- A scan of 32 bits that asks for a read, with both status bits at 1. -/
def readScan : List DtmIn :=
  status true true ([(false, false), (false, true), (false, true)] ++ List.replicate 29 (false, false) ++
    [(true, false), (true, false)])

theorem hostCommand_iff_read :
    (∀ j, ((readScan.foldl edge pollCtrl).edge j).startPulseTck = true) ∧ HostCommand pollCtrl readScan := by
  have hcmd : HostCommand pollCtrl readScan :=
    (hostCommand_iff (by decide +kernel) (by decide +kernel) (by decide +kernel)).2
      ⟨by decide +kernel, by decide +kernel, by decide +kernel⟩
  exact ⟨fun j => (hcmd.start j).trans (by decide +kernel), hcmd⟩

/-- Capture-DR, Exit1-DR, Update-DR while the bridge is busy starts another transaction,
and so does a scan of one 0 after a transaction that went well. -/
theorem poll_starts :
    pollCtrl.tap = .captureDr ∧ pollCtrl.irReg = irAxiCtrl ∧ pollCtrl.rwTck = false ∧
      Arrives .updateDr pollCtrl (status true false [(true, false), (true, false)]) ∧
      ¬ HostCommand pollCtrl (status true false [(true, false), (true, false)]) ∧
      Arrives .updateDr pollCtrl (status false true [(false, false), (true, false), (true, false)]) ∧
      ¬ HostCommand pollCtrl (status false true [(false, false), (true, false), (true, false)]) := by
  refine ⟨by decide +kernel, by decide +kernel, by decide +kernel, by decide +kernel, fun h => ?_, by decide +kernel,
    fun h => ?_⟩
  · exact absurd (h.start ⟨false, false, true, false, 0⟩) (by decide +kernel)
  · exact absurd (h.start ⟨false, false, false, true, 0⟩) (by decide +kernel)

end RiscvSoc.Jtag.JtagDtm
