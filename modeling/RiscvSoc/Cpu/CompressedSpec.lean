import RiscvSoc.Cpu.DecoderSpec
/-!
# The decoder on compressed instructions

A compressed instruction is put in `mem_rdata_q` as the base instruction that it stands for,
as far as the second stage looks at it.
-/

namespace RiscvSoc.Cpu

open Rv32 Concat

/-! ## What is replaced in `mem_rdata_q` -/

section Fields

variable (q : Word32)

theorem setFunct3_eq (v : BitVec 3) : setFunct3 v q = splice 12 v q := append3_eq_splice (a := 17) (c := 12) v q

theorem setFunct7_eq (v : BitVec 7) : setFunct7 v q = splice 25 v q := append_eq_splice (b := 25) v q

theorem setImmI_eq (v : BitVec 12) : setImmI v q = splice 20 v q := append_eq_splice (b := 20) v q

theorem setImmU_eq (v : BitVec 20) : setImmU v q = splice 12 v q := append_eq_splice (b := 12) v q

theorem setImmS_eq (v : BitVec 12) : setImmS v q = splice 25 (v.extractLsb' 5 7) (splice 7 (v.extractLsb' 0 5) q) :=
  append4_eq_splice (b := 13) (d := 7) (v.extractLsb' 5 7) (v.extractLsb' 0 5) q

theorem setImmB_eq (v : BitVec 12) : setImmB v q =
    splice 25 (v.extractLsb' 11 1 ++ v.extractLsb' 4 6) (splice 7 (v.extractLsb' 0 4 ++ v.extractLsb' 10 1) q) :=
  (congrArg (· ++ q.extractLsb' 0 7) BitVec.append_assoc).trans
    (append4_eq_splice (b := 13) (d := 7) (v.extractLsb' 11 1 ++ v.extractLsb' 4 6) (v.extractLsb' 0 4 ++ v.extractLsb' 10 1) q)

@[simp] theorem opcode_setFunct3 (v : BitVec 3) : opcode (setFunct3 v q) = opcode q := by
  rw [setFunct3_eq]
  exact extract_splice_of_le (by omega) (by omega)

@[simp] theorem opcode_setFunct7 (v : BitVec 7) : opcode (setFunct7 v q) = opcode q := by
  rw [setFunct7_eq]
  exact extract_splice_of_le (by omega) (by omega)

@[simp] theorem opcode_setImmI (v : BitVec 12) : opcode (setImmI v q) = opcode q := by
  rw [setImmI_eq]
  exact extract_splice_of_le (by omega) (by omega)

@[simp] theorem opcode_setImmU (v : BitVec 20) : opcode (setImmU v q) = opcode q := by
  rw [setImmU_eq]
  exact extract_splice_of_le (by omega) (by omega)

@[simp] theorem opcode_setImmS (v : BitVec 12) : opcode (setImmS v q) = opcode q := by
  rw [setImmS_eq]
  exact (extract_splice_of_le (by omega) (by omega)).trans (extract_splice_of_le (by omega) (by omega))

@[simp] theorem opcode_setImmB (v : BitVec 12) : opcode (setImmB v q) = opcode q := by
  rw [setImmB_eq]
  exact (extract_splice_of_le (by omega) (by omega)).trans (extract_splice_of_le (by omega) (by omega))

@[simp] theorem funct3_setFunct3 (v : BitVec 3) : funct3 (setFunct3 v q) = v := by
  rw [setFunct3_eq]
  exact extract_splice_self (by omega)

@[simp] theorem funct3_setFunct7 (v : BitVec 7) : funct3 (setFunct7 v q) = funct3 q := by
  rw [setFunct7_eq]
  exact extract_splice_of_le (by omega) (by omega)

@[simp] theorem funct3_setImmI (v : BitVec 12) : funct3 (setImmI v q) = funct3 q := by
  rw [setImmI_eq]
  exact extract_splice_of_le (by omega) (by omega)

@[simp] theorem funct3_setImmB (v : BitVec 12) : funct3 (setImmB v q) = funct3 q := by
  rw [setImmB_eq]
  exact (extract_splice_of_le (by omega) (by omega)).trans (extract_splice_of_ge (by omega) (by omega))

@[simp] theorem funct7_setFunct7 (v : BitVec 7) : funct7 (setFunct7 v q) = v := by
  rw [setFunct7_eq]
  exact extract_splice_self (by omega)

@[simp] theorem funct7_setFunct3 (v : BitVec 3) : funct7 (setFunct3 v q) = funct7 q := by
  rw [setFunct3_eq]
  exact extract_splice_of_ge (by omega) (by omega)

@[simp] theorem immI_setImmI (v : BitVec 12) : immI (setImmI v q) = v.signExtend 32 := by
  rw [setImmI_eq]
  exact congrArg (BitVec.signExtend 32) (extract_splice_self (by omega))

@[simp] theorem immI_setFunct3 (v : BitVec 3) : immI (setFunct3 v q) = immI q := by
  rw [setFunct3_eq]
  exact congrArg (BitVec.signExtend 32) (extract_splice_of_ge (by omega) (by omega))

@[simp] theorem immU_setImmU (v : BitVec 20) : immU (setImmU v q) = v ++ 0#12 := by
  rw [setImmU_eq]
  exact congrArg (· ++ 0#12) (extract_splice_self (by omega))

@[simp] theorem immS_setImmS (v : BitVec 12) : immS (setImmS v q) = v.signExtend 32 := by
  have hhi : (setImmS v q).extractLsb' 25 7 = v.extractLsb' 5 7 := by
    rw [setImmS_eq]
    exact extract_splice_self (by omega)
  have hlo : (setImmS v q).extractLsb' 7 5 = v.extractLsb' 0 5 := by
    rw [setImmS_eq]
    exact (extract_splice_of_le (by omega) (by omega)).trans (extract_splice_self (by omega))
  have hv : v.extractLsb' 5 7 ++ v.extractLsb' 0 5 = v :=
    (BitVec.extractLsb'_append_extractLsb'_eq_extractLsb' rfl).trans BitVec.extractLsb'_eq_self
  have himm : (setImmS v q).extractLsb' 25 7 ++ (setImmS v q).extractLsb' 7 5 = v := by rw [hhi, hlo, hv]
  exact congrArg (BitVec.signExtend 32) himm

@[simp] theorem immS_setFunct3 (v : BitVec 3) : immS (setFunct3 v q) = immS q := by
  have hhi : (setFunct3 v q).extractLsb' 25 7 = q.extractLsb' 25 7 := by
    rw [setFunct3_eq]
    exact extract_splice_of_ge (by omega) (by omega)
  have hlo : (setFunct3 v q).extractLsb' 7 5 = q.extractLsb' 7 5 := by
    rw [setFunct3_eq]
    exact extract_splice_of_le (by omega) (by omega)
  exact congrArg₂ (fun x y : BitVec _ => (x ++ y).signExtend 32) hhi hlo

@[simp] theorem immB_setImmB (v : BitVec 12) : immB (setImmB v q) = (v ++ 0#1).signExtend 32 := by
  have h31 : (setImmB v q).extractLsb' 31 1 = v.extractLsb' 11 1 := by
    rw [setImmB_eq]
    exact (extract_splice_within (by omega) (by omega) (by omega)).trans BitVec.extractLsb'_append_eq_left
  have h25 : (setImmB v q).extractLsb' 25 6 = v.extractLsb' 4 6 := by
    rw [setImmB_eq]
    exact (extract_splice_within (by omega) (by omega) (by omega)).trans BitVec.extractLsb'_append_eq_right
  have h8 : (setImmB v q).extractLsb' 8 4 = v.extractLsb' 0 4 := by
    rw [setImmB_eq, extract_splice_of_le (by omega) (by omega)]
    exact (extract_splice_within (by omega) (by omega) (by omega)).trans BitVec.extractLsb'_append_eq_left
  have h7 : (setImmB v q).extractLsb' 7 1 = v.extractLsb' 10 1 := by
    rw [setImmB_eq, extract_splice_of_le (by omega) (by omega)]
    exact (extract_splice_within (by omega) (by omega) (by omega)).trans BitVec.extractLsb'_append_eq_right
  have hv : v.extractLsb' 11 1 ++ v.extractLsb' 10 1 ++ v.extractLsb' 4 6 ++ v.extractLsb' 0 4 = v := by
    have e1 : v.extractLsb' 11 1 ++ v.extractLsb' 10 1 = v.extractLsb' 10 2 :=
      BitVec.extractLsb'_append_extractLsb'_eq_extractLsb' rfl
    have e2 : v.extractLsb' 10 2 ++ v.extractLsb' 4 6 = v.extractLsb' 4 8 :=
      BitVec.extractLsb'_append_extractLsb'_eq_extractLsb' rfl
    have e3 : v.extractLsb' 4 8 ++ v.extractLsb' 0 4 = v.extractLsb' 0 12 :=
      BitVec.extractLsb'_append_extractLsb'_eq_extractLsb' rfl
    rw [e1, e2, e3]
    exact BitVec.extractLsb'_eq_self
  have himm : (setImmB v q).extractLsb' 31 1 ++ (setImmB v q).extractLsb' 7 1 ++ (setImmB v q).extractLsb' 25 6 ++
      (setImmB v q).extractLsb' 8 4 = v := by rw [h31, h25, h8, h7, hv]
  exact congrArg (fun x : BitVec 12 => (x ++ 0#1).signExtend 32) himm

end Fields

/-! ## The first stage -/

/-- No flag is set yet. -/
structure Blank (f : DecodeFirst) : Prop where
  is : f.Is .system
  retirq : f.instrRetirq = false
  waitirq : f.instrWaitirq = false

section Compressed

variable {l q x : Word32} {f f' : DecodeFirst} (hlow : l.extractLsb 1 0 ≠ 0b11#2)

include hlow in
theorem opcode_compressed {o : BitVec 7} (ho : o.extractLsb 1 0 = 0b11) : opcode l ≠ o := by
  intro h
  have hbits := extract_low l (n := 6) (u := 1) (l := 0) (by omega) (by omega)
  rw [show l.extractLsb 6 0 = o from h, ho] at hbits
  exact hlow hbits.symm

include hlow in
theorem blank_compressed : Blank (DecodeFirst.compressed l (.ofFull l)) := by
  have hop : l.extractLsb 6 0 ≠ 0b0001011#7 := opcode_compressed hlow (by decide)
  have hne (c : Class) : opcode l ≠ c.opcode := opcode_compressed hlow (by cases c <;> decide)
  have h := is_ofFull_system fun c hc => absurd hc (hne c)
  refine ⟨⟨h.lui, h.auipc, h.jal, h.jalr, h.branch, h.load, h.store, h.imm, h.reg⟩, ?_, ?_⟩ <;>
    simp [DecodeFirst.compressed, DecodeFirst.ofFull, hop]

include hlow in
/-- Only the bits of `c.ebreak` are read as one. -/
theorem Blank.plain (h : f'.instrRetirq = false ∧ f'.instrWaitirq = false) (hop : opcode q = opcode l)
    (heb : l.extractLsb 1 0 = 0b10#2 → q.extractLsb 15 0 ≠ 0x9002) : Plain f' q := by
  refine ⟨h.1, h.2, ?_, ?_, ?_, fun hl => ?_⟩
  · rw [hop]
    exact opcode_compressed hlow (by decide)
  · rw [hop]
    exact opcode_compressed hlow (by decide)
  · rw [hop]
    exact opcode_compressed hlow (by decide)
  · refine heb ?_ hl
    have h1 := extract_low l (n := 6) (u := 1) (l := 0) (by omega) (by omega)
    have h2 := extract_low q (n := 6) (u := 1) (l := 0) (by omega) (by omega)
    have h3 := extract_low q (n := 15) (u := 1) (l := 0) (by omega) (by omega)
    rw [show q.extractLsb 6 0 = l.extractLsb 6 0 from hop, h1] at h2
    rw [hl, ← h2] at h3
    exact h3.symm

theorem not_ebreak_of_funct3 (h : funct3 q ≠ 1#3) : q.extractLsb 15 0 ≠ 0x9002 := by
  intro hl
  have hbits := extract_low q (n := 15) (u := 14) (l := 12) (by omega) (by omega)
  rw [hl] at hbits
  exact h hbits.symm

end Compressed

/-! ## The operands -/

section Operands

variable (l : Word32)

theorem crd_low : crd (l.extractLsb 15 0) = l.extractLsb 11 7 := extract_low l (by omega) (by omega)

theorem crs2_low : crs2 (l.extractLsb 15 0) = l.extractLsb 6 2 := extract_low l (by omega) (by omega)

theorem crdLow_low : crdLow (l.extractLsb 15 0) = creg (l.extractLsb 4 2) :=
  congrArg Rv32.creg (extract_low l (by omega) (by omega))

theorem crs1Low_low : crs1Low (l.extractLsb 15 0) = creg (l.extractLsb 9 7) :=
  congrArg Rv32.creg (extract_low l (by omega) (by omega))

theorem cimm_low : cimm (l.extractLsb 15 0) = (imm6 l).signExtend 32 := by
  simp (disch := omega) only [cimm, imm6, extract_low, signExtend_signExtend]

theorem cimmAddi4spn_low : cimmAddi4spn (l.extractLsb 15 0) =
    (0b00#2 ++ l.extractLsb 10 7 ++ l.extractLsb 12 11 ++ l.extractLsb 5 5 ++ l.extractLsb 6 6 ++ 0b00#2).signExtend 32 := by
  have h1 (N : ℕ) := signExtend_zero_append (n := 2) (N := N) (l.extractLsb 10 7) (by omega)
  have h2 (N : ℕ) := signExtend_setWidth_append (N := N) (by omega) h1 (l.extractLsb 12 11)
  have h3 (N : ℕ) := signExtend_setWidth_append (N := N) (by omega) h2 (l.extractLsb 5 5)
  have h4 (N : ℕ) := signExtend_setWidth_append (N := N) (by omega) h3 (l.extractLsb 6 6)
  simp (disch := omega) only [cimmAddi4spn, extract_low]
  exact (signExtend_setWidth_append (by omega) h4 0b00#2).symm

theorem cimmLw_low : cimmLw (l.extractLsb 15 0) =
    (0b00000#5 ++ l.extractLsb 5 5 ++ l.extractLsb 12 10 ++ l.extractLsb 6 6 ++ 0b00#2).signExtend 32 := by
  have h1 (N : ℕ) := signExtend_zero_append (n := 5) (N := N) (l.extractLsb 5 5) (by omega)
  have h2 (N : ℕ) := signExtend_setWidth_append (N := N) (by omega) h1 (l.extractLsb 12 10)
  have h3 (N : ℕ) := signExtend_setWidth_append (N := N) (by omega) h2 (l.extractLsb 6 6)
  simp (disch := omega) only [cimmLw, extract_low]
  exact (signExtend_setWidth_append (by omega) h3 0b00#2).symm

theorem cimmLwsp_low : cimmLwsp (l.extractLsb 15 0) =
    (0b0000#4 ++ l.extractLsb 3 2 ++ l.extractLsb 12 12 ++ l.extractLsb 6 4 ++ 0b00#2).signExtend 32 := by
  have h1 (N : ℕ) := signExtend_zero_append (n := 4) (N := N) (l.extractLsb 3 2) (by omega)
  have h2 (N : ℕ) := signExtend_setWidth_append (N := N) (by omega) h1 (l.extractLsb 12 12)
  have h3 (N : ℕ) := signExtend_setWidth_append (N := N) (by omega) h2 (l.extractLsb 6 4)
  simp (disch := omega) only [cimmLwsp, extract_low]
  exact (signExtend_setWidth_append (by omega) h3 0b00#2).symm

theorem cimmSwsp_low : cimmSwsp (l.extractLsb 15 0) =
    (0b0000#4 ++ l.extractLsb 8 7 ++ l.extractLsb 12 9 ++ 0b00#2).signExtend 32 := by
  have h1 (N : ℕ) := signExtend_zero_append (n := 4) (N := N) (l.extractLsb 8 7) (by omega)
  have h2 (N : ℕ) := signExtend_setWidth_append (N := N) (by omega) h1 (l.extractLsb 12 9)
  simp (disch := omega) only [cimmSwsp, extract_low]
  exact (signExtend_setWidth_append (by omega) h2 0b00#2).symm

theorem cimmAddi16sp_low : cimmAddi16sp (l.extractLsb 15 0) =
    ((l.extractLsb 12 12 ++ l.extractLsb 4 3 ++ l.extractLsb 5 5 ++ l.extractLsb 2 2 ++ l.extractLsb 6 6 ++
      0b0000#4).signExtend 12).signExtend 32 := by
  simp (disch := omega) only [cimmAddi16sp, extract_low, signExtend_signExtend]

theorem cimmLui_low : cimmLui (l.extractLsb 15 0) = (l.extractLsb 12 12 ++ l.extractLsb 6 2).signExtend 20 ++ 0#12 := by
  simp (disch := omega) only [cimmLui, extract_low]
  exact signExtend_append (n := 20) _ _ (by omega)

theorem cimmB_low : cimmB (l.extractLsb 15 0) =
    ((l.extractLsb 12 12 ++ l.extractLsb 6 5 ++ l.extractLsb 2 2 ++ l.extractLsb 11 10 ++ l.extractLsb 4 3).signExtend 12 ++
      0#1).signExtend 32 := by
  have h := signExtend_append (n := 31)
    ((l.extractLsb 12 12 ++ l.extractLsb 6 5 ++ l.extractLsb 2 2 ++ l.extractLsb 11 10 ++ l.extractLsb 4 3).signExtend 12) 0#1 (by omega)
  rw [signExtend_signExtend _ (by omega) (by omega)] at h
  simp (disch := omega) only [cimmB, extract_low]
  exact (signExtend_append (n := 31) _ 0#1 (by omega)).trans h.symm

theorem cimmJ_low : cimmJ (l.extractLsb 15 0) =
    (l.extractLsb 12 12).signExtend 21 ++ l.extractLsb 8 8 ++ l.extractLsb 10 9 ++ l.extractLsb 6 6 ++ l.extractLsb 7 7 ++
      l.extractLsb 2 2 ++ l.extractLsb 11 11 ++ l.extractLsb 5 3 ++ 0#1 := by
  simp (disch := omega) only [cimmJ, extract_low]
  exact signExtend_append_of (n := 31) (by omega) (signExtend_append_of (n := 28) (by omega) (signExtend_append_of (n := 27) (by omega)
    (signExtend_append_of (n := 26) (by omega) (signExtend_append_of (n := 25) (by omega) (signExtend_append_of (n := 24) (by omega)
      (signExtend_append_of (n := 22) (by omega) (signExtend_append_of (n := 21) (by omega) rfl _) _) _) _) _) _) _) _

end Operands
/-! ## The quadrants -/

section Quadrants

variable {l x : Word32} {f : DecodeFirst} (hb : Blank f) (hlow : l.extractLsb 1 0 ≠ 0b11#2)

include hlow in
theorem not_mulDiv_compressed {f : DecodeFirst} {q : Word32} (h : opcode q = opcode l) :
    isMulDiv (DecodeSecond.ofWord q f x).pcpiInsn = false :=
  not_mulDiv (h ▸ opcode_compressed hlow (by decide))

include hb hlow in
theorem decoded_q0 (hq : l.extractLsb 1 0 = 0b00#2) :
    Decoded (((decodeC0 (l.extractLsb 15 0)).map Insn.base).getD .illegal) (.ofQ0 l f)
      (.ofWord (expandQ0 l l) (.ofQ0 l f) x) := by
  have hplain {f' : DecodeFirst} {q : Word32} (h : f'.instrRetirq = false ∧ f'.instrWaitirq = false) (hop : opcode q = opcode l) :
      Plain f' q := Blank.plain hlow h hop fun h2 => absurd (hq.symm.trans h2) (by decide)
  simp (disch := omega) only [decodeC0, DecodeFirst.ofQ0, expandQ0, extract_low, crdLow_low, crs1Low_low, cimmAddi4spn_low,
    cimmLw_low]
  by_cases h0 : l.extractLsb 15 13 = 0#3
  · simp only [h0, BitVec.ofNat_eq_ofNat, ↓reduceIte]
    by_cases hz : l.extractLsb 12 5 = 0#8
    · simp only [hz, ↓reduceIte, Option.map_none, Option.getD_none, ne_eq, not_true_eq_false, decide_false]
      exact .of_class (c := .system)
        ⟨hb.is.lui, hb.is.auipc, hb.is.jal, hb.is.jalr, hb.is.branch, hb.is.load, hb.is.store, rfl, hb.is.reg⟩
        (hplain ⟨hb.retirq, hb.waitirq⟩ (by simp)) rfl fun _ => not_mulDiv_compressed hlow (by simp)
    · simp only [hz, ↓reduceIte, Option.map_some, Option.getD_some, ne_eq, not_false_eq_true, decide_true]
      exact .of_class (c := .imm)
        ⟨hb.is.lui, hb.is.auipc, hb.is.jal, hb.is.jalr, hb.is.branch, hb.is.load, hb.is.store, rfl, hb.is.reg⟩
        (hplain ⟨hb.retirq, hb.waitirq⟩ (by simp)) (by simp only [funct3_setImmI, funct3_setFunct3]; rfl)
        fun himm => ⟨rfl, rfl, himm.trans (immI_setImmI ..)⟩
  by_cases h2 : l.extractLsb 15 13 = 2#3
  · simp only [h2, BitVec.ofNat_eq_ofNat, BitVec.reduceEq, ↓reduceIte, Option.map_some, Option.getD_some]
    exact .of_class (c := .load)
      ⟨hb.is.lui, hb.is.auipc, hb.is.jal, hb.is.jalr, hb.is.branch, rfl, hb.is.store, hb.is.imm, hb.is.reg⟩
      (hplain ⟨hb.retirq, hb.waitirq⟩ (by simp)) (by simp only [funct3_setFunct3]; rfl)
      fun himm => ⟨rfl, rfl, himm.trans ((immI_setFunct3 ..).trans (immI_setImmI ..))⟩
  by_cases h6 : l.extractLsb 15 13 = 6#3
  · simp only [h6, BitVec.ofNat_eq_ofNat, BitVec.reduceEq, ↓reduceIte, Option.map_some, Option.getD_some]
    exact .of_class (c := .store)
      ⟨hb.is.lui, hb.is.auipc, hb.is.jal, hb.is.jalr, hb.is.branch, hb.is.load, rfl, hb.is.imm, hb.is.reg⟩
      (hplain ⟨hb.retirq, hb.waitirq⟩ (by simp)) (by simp only [funct3_setFunct3]; rfl)
      fun himm => ⟨rfl, rfl, himm.trans ((immS_setFunct3 ..).trans (immS_setImmS ..))⟩
  · simp only [h0, h2, h6, BitVec.ofNat_eq_ofNat, ↓reduceIte, Option.map_none, Option.getD_none]
    exact .of_class hb.is (hplain ⟨hb.retirq, hb.waitirq⟩ rfl) rfl fun _ => not_mulDiv_compressed hlow rfl

include hlow in
theorem plain_q1 (hq : l.extractLsb 1 0 = 0b01#2) {f' : DecodeFirst} {q : Word32}
    (h : f'.instrRetirq = false ∧ f'.instrWaitirq = false) (hop : opcode q = opcode l) : Plain f' q :=
  Blank.plain hlow h hop fun h2 => absurd (hq.symm.trans h2) (by decide)

include hb hlow in
theorem decoded_q1_lui (hq : l.extractLsb 1 0 = 0b01#2) (h3 : l.extractLsb 15 13 = 3#3) :
    Decoded (((decodeC1 (l.extractLsb 15 0)).map Insn.base).getD .illegal) (.ofQ1 l f)
      (.ofWord (expandQ1 l l) (.ofQ1 l f) x) := by
  have hfunct := extract_low l (n := 15) (u := 15) (l := 13) (by omega) (by omega)
  have hbit := extract_low l (n := 15) (u := 12) (l := 12) (by omega) (by omega)
  unfold decodeC1 DecodeFirst.ofQ1 expandQ1
  simp only [hfunct, hbit, h3, crd_low, crs2_low, BitVec.ofNat_eq_ofNat, BitVec.reduceEq, ↓reduceIte, decide_false, Bool.false_or,
    Bool.false_eq_true]
  by_cases hz : l.extractLsb 12 12 = 0#1 ∧ l.extractLsb 6 2 = 0#5
  · simp only [hz.1, hz.2, ↓reduceIte, decide_true, Bool.and_self, ne_eq, not_true_eq_false, decide_false, Bool.or_self, Bool.false_eq_true,
      Option.map_none, Option.getD_none]
    refine .of_class hb.is (plain_q1 hlow hq ⟨hb.retirq, hb.waitirq⟩ ?_) rfl fun _ => not_mulDiv_compressed hlow ?_ <;>
      split_ifs <;> simp
  · have hz1 : (decide (l.extractLsb 12 12 = 0#1) && decide (l.extractLsb 6 2 = 0#5)) = false := by
      simpa using hz
    have hz2 : (decide (l.extractLsb 12 12 ≠ 0#1) || decide (l.extractLsb 6 2 ≠ 0#5)) = true := by
      rw [← Bool.not_eq_false', Bool.not_or]
      simpa using hz
    simp only [hz1, hz2, Bool.false_eq_true, ↓reduceIte]
    by_cases hd : l.extractLsb 11 7 = 2#5
    · simp only [hd, ↓reduceIte, Option.map_some, Option.getD_some, cimmAddi16sp_low]
      exact .of_class (c := .imm)
        ⟨hb.is.lui, hb.is.auipc, hb.is.jal, hb.is.jalr, hb.is.branch, hb.is.load, hb.is.store, rfl, hb.is.reg⟩
        (plain_q1 hlow hq ⟨hb.retirq, hb.waitirq⟩ (by simp)) (by simp only [funct3_setImmI, funct3_setFunct3]; rfl)
        fun himm => ⟨congrArg (BitVec.setWidth 6) hd, congrArg (BitVec.setWidth 6) hd, himm.trans (immI_setImmI ..)⟩
    · simp only [hd, ↓reduceIte, Option.map_some, Option.getD_some, cimmLui_low]
      exact .of_class (c := .lui)
        ⟨rfl, hb.is.auipc, hb.is.jal, hb.is.jalr, hb.is.branch, hb.is.load, hb.is.store, hb.is.imm, hb.is.reg⟩
        (plain_q1 hlow hq ⟨hb.retirq, hb.waitirq⟩ (by simp)) rfl fun himm => ⟨rfl, himm.trans (immU_setImmU ..)⟩

include hb hlow in
theorem decoded_q1_alu (hq : l.extractLsb 1 0 = 0b01#2) (h4 : l.extractLsb 15 13 = 4#3) :
    Decoded (((decodeC1 (l.extractLsb 15 0)).map Insn.base).getD .illegal) (.ofQ1 l f)
      (.ofWord (expandQ1 l l) (.ofQ1 l f) x) := by
  have hfunct := extract_low l (n := 15) (u := 15) (l := 13) (by omega) (by omega)
  have hbit := extract_low l (n := 15) (u := 12) (l := 12) (by omega) (by omega)
  have hmid := extract_low l (n := 15) (u := 11) (l := 10) (by omega) (by omega)
  have hop := extract_low l (n := 15) (u := 6) (l := 5) (by omega) (by omega)
  unfold decodeC1 DecodeFirst.ofQ1 expandQ1
  simp only [hfunct, hbit, hmid, hop, h4, crs2_low, crdLow_low, crs1Low_low, cimm_low, BitVec.ofNat_eq_ofNat, BitVec.reduceEq,
    ↓reduceIte, decide_false, Bool.false_or, Bool.false_eq_true]
  -- bits 12 to 10 tell the operations apart
  have h11 := extract_extract l 1 10 (m := 1) (n := 2) (by omega)
  have h12 : l.extractLsb 12 10 = 3#3 ↔ l.extractLsb 12 12 = 0#1 ∧ l.extractLsb 11 10 = 3#2 := extract_add_eq_iff l 10 1 2
  have hall1 : ∀ v : BitVec 1, v = 0#1 ∨ v = 1#1 := by decide
  have hall2 : ∀ v : BitVec 2, v = 0#2 ∨ v = 1#2 ∨ v = 2#2 ∨ v = 3#2 := by decide
  simp only [h12]
  rcases hall2 (l.extractLsb 11 10) with hm | hm | hm | hm
  · have hb11 : l.extractLsb 11 11 = 0#1 := h11.symm.trans (congrArg (·.extractLsb' 1 1) hm)
    rcases hall1 (l.extractLsb 12 12) with hz | hz
    · simp only [hm, hb11, hz, BitVec.reduceEq, ↓reduceIte, decide_true, Bool.and_self, Option.map_some, Option.getD_some]
      exact .of_class (c := .imm)
        ⟨hb.is.lui, hb.is.auipc, hb.is.jal, hb.is.jalr, hb.is.branch, hb.is.load, hb.is.store, rfl, hb.is.reg⟩
        (plain_q1 hlow hq ⟨hb.retirq, hb.waitirq⟩ (by simp))
        (by simp only [funct3_setFunct3, funct7_setFunct3, funct7_setFunct7]; rfl) fun _ => ⟨rfl, rfl, rfl⟩
    · simp only [hm, hz, BitVec.reduceEq, ↓reduceIte, decide_false, Bool.and_false, Bool.false_eq_true, false_and, Option.map_none,
        Option.getD_none]
      exact .of_class hb.is (plain_q1 hlow hq ⟨hb.retirq, hb.waitirq⟩ (by simp)) rfl
        fun _ => not_mulDiv_compressed hlow (by simp)
  · have hb11 : l.extractLsb 11 11 = 0#1 := h11.symm.trans (congrArg (·.extractLsb' 1 1) hm)
    rcases hall1 (l.extractLsb 12 12) with hz | hz
    · simp only [hm, hb11, hz, BitVec.reduceEq, ↓reduceIte, decide_true, Bool.and_self, Option.map_some, Option.getD_some]
      exact .of_class (c := .imm)
        ⟨hb.is.lui, hb.is.auipc, hb.is.jal, hb.is.jalr, hb.is.branch, hb.is.load, hb.is.store, rfl, hb.is.reg⟩
        (plain_q1 hlow hq ⟨hb.retirq, hb.waitirq⟩ (by simp))
        (by simp only [funct3_setFunct3, funct7_setFunct3, funct7_setFunct7]; rfl) fun _ => ⟨rfl, rfl, rfl⟩
    · simp only [hm, hz, BitVec.reduceEq, ↓reduceIte, decide_false, Bool.and_false, Bool.false_eq_true, false_and, Option.map_none,
        Option.getD_none]
      exact .of_class hb.is (plain_q1 hlow hq ⟨hb.retirq, hb.waitirq⟩ (by simp)) rfl
        fun _ => not_mulDiv_compressed hlow (by simp)
  · have hb11 : l.extractLsb 11 11 = 1#1 := h11.symm.trans (congrArg (·.extractLsb' 1 1) hm)
    simp only [hm, hb11, BitVec.reduceEq, ↓reduceIte, decide_false, Bool.false_and, Bool.false_eq_true, Option.map_some,
      Option.getD_some]
    exact .of_class (c := .imm)
      ⟨hb.is.lui, hb.is.auipc, hb.is.jal, hb.is.jalr, hb.is.branch, hb.is.load, hb.is.store, rfl, hb.is.reg⟩
      (plain_q1 hlow hq ⟨hb.retirq, hb.waitirq⟩ (by simp)) (by simp only [funct3_setImmI, funct3_setFunct3]; rfl)
      fun himm => ⟨rfl, rfl, himm.trans (immI_setImmI ..)⟩
  · have hb11 : l.extractLsb 11 11 = 1#1 := h11.symm.trans (congrArg (·.extractLsb' 1 1) hm)
    rcases hall1 (l.extractLsb 12 12) with hz | hz
    · simp only [hm, hb11, hz, BitVec.reduceEq, ↓reduceIte, decide_true, decide_false, Bool.and_true, Bool.false_eq_true, and_self,
        Option.map_some, Option.getD_some]
      refine .of_class (c := .reg)
        ⟨hb.is.lui, hb.is.auipc, hb.is.jal, hb.is.jalr, hb.is.branch, hb.is.load, hb.is.store, hb.is.imm, rfl⟩
        (plain_q1 hlow hq ⟨hb.retirq, hb.waitirq⟩ (by simp)) ?_ fun _ => ⟨rfl, rfl, rfl⟩
      simp only [funct3_setFunct7, funct3_setFunct3, funct7_setFunct7]
      rcases hall2 (l.extractLsb 6 5) with ho | ho | ho | ho <;> rw [ho] <;> rfl
    · simp only [hm, hb11, hz, BitVec.reduceEq, ↓reduceIte, decide_false, Bool.and_false, Bool.false_eq_true, false_and,
        Option.map_none, Option.getD_none]
      exact .of_class hb.is (plain_q1 hlow hq ⟨hb.retirq, hb.waitirq⟩ rfl) rfl fun _ => not_mulDiv_compressed hlow rfl

include hb hlow in
theorem decoded_q1 (hq : l.extractLsb 1 0 = 0b01#2) (hj : f.decodedImmJ = cimmJ (l.extractLsb 15 0)) (hd : f.decodedRd = 0) :
    Decoded (((decodeC1 (l.extractLsb 15 0)).map Insn.base).getD .illegal) (.ofQ1 l f)
      (.ofWord (expandQ1 l l) (.ofQ1 l f) x) := by
  have hfunct := extract_low l (n := 15) (u := 15) (l := 13) (by omega) (by omega)
  unfold decodeC1 DecodeFirst.ofQ1 expandQ1
  by_cases h0 : l.extractLsb 15 13 = 0#3
  · simp only [hfunct, h0, crd_low, cimm_low, BitVec.ofNat_eq_ofNat, BitVec.reduceEq, ↓reduceIte, Option.map_some, Option.getD_some, decide_true, Bool.true_or]
    exact .of_class (c := .imm)
      ⟨hb.is.lui, hb.is.auipc, hb.is.jal, hb.is.jalr, hb.is.branch, hb.is.load, hb.is.store, rfl, hb.is.reg⟩
      (plain_q1 hlow hq ⟨hb.retirq, hb.waitirq⟩ (by simp)) (by simp only [funct3_setImmI, funct3_setFunct3]; rfl)
      fun himm => ⟨rfl, rfl, himm.trans (immI_setImmI ..)⟩
  by_cases h1 : l.extractLsb 15 13 = 1#3
  · simp only [hfunct, h1, BitVec.ofNat_eq_ofNat, BitVec.reduceEq, ↓reduceIte, Option.map_some, Option.getD_some, decide_false, Bool.false_or,
      Bool.false_eq_true]
    exact .of_class (c := .jal)
      ⟨hb.is.lui, hb.is.auipc, rfl, hb.is.jalr, hb.is.branch, hb.is.load, hb.is.store, hb.is.imm, hb.is.reg⟩
      (plain_q1 hlow hq ⟨hb.retirq, hb.waitirq⟩ rfl) rfl fun himm => ⟨rfl, hj⟩
  by_cases h2 : l.extractLsb 15 13 = 2#3
  · simp only [hfunct, h2, crd_low, cimm_low, BitVec.ofNat_eq_ofNat, BitVec.reduceEq, ↓reduceIte, Option.map_some, Option.getD_some, decide_true, Bool.or_true]
    exact .of_class (c := .imm)
      ⟨hb.is.lui, hb.is.auipc, hb.is.jal, hb.is.jalr, hb.is.branch, hb.is.load, hb.is.store, rfl, hb.is.reg⟩
      (plain_q1 hlow hq ⟨hb.retirq, hb.waitirq⟩ (by simp)) (by simp only [funct3_setImmI, funct3_setFunct3]; rfl)
      fun himm => ⟨rfl, rfl, himm.trans (immI_setImmI ..)⟩
  by_cases h3 : l.extractLsb 15 13 = 3#3
  · exact decoded_q1_lui hb hlow hq h3
  by_cases h4 : l.extractLsb 15 13 = 4#3
  · exact decoded_q1_alu hb hlow hq h4
  by_cases h5 : l.extractLsb 15 13 = 5#3
  · simp only [hfunct, h5, BitVec.ofNat_eq_ofNat, BitVec.reduceEq, ↓reduceIte, Option.map_some, Option.getD_some, decide_false, Bool.false_or,
      Bool.false_eq_true]
    exact .of_class (c := .jal)
      ⟨hb.is.lui, hb.is.auipc, rfl, hb.is.jalr, hb.is.branch, hb.is.load, hb.is.store, hb.is.imm, hb.is.reg⟩
      (plain_q1 hlow hq ⟨hb.retirq, hb.waitirq⟩ rfl) rfl fun himm => ⟨hd, hj⟩
  by_cases h6 : l.extractLsb 15 13 = 6#3
  · simp only [hfunct, h6, crs1Low_low, cimmB_low, BitVec.ofNat_eq_ofNat, BitVec.reduceEq, ↓reduceIte, Option.map_some, Option.getD_some, decide_true, Bool.true_or,
      decide_false, Bool.or_self, Bool.false_eq_true]
    exact .of_class (c := .branch)
      ⟨hb.is.lui, hb.is.auipc, hb.is.jal, hb.is.jalr, rfl, hb.is.load, hb.is.store, hb.is.imm, hb.is.reg⟩
      (plain_q1 hlow hq ⟨hb.retirq, hb.waitirq⟩ (by simp)) (by simp only [funct3_setImmB, funct3_setFunct3]; rfl)
      fun himm => ⟨rfl, rfl, himm.trans (immB_setImmB ..)⟩
  · have h7 : l.extractLsb 15 13 = 7#3 := by
      have hall : ∀ v : BitVec 3, v = 0#3 ∨ v = 1#3 ∨ v = 2#3 ∨ v = 3#3 ∨ v = 4#3 ∨ v = 5#3 ∨ v = 6#3 ∨ v = 7#3 := by decide
      simpa only [h0, h1, h2, h3, h4, h5, h6, false_or] using hall (l.extractLsb 15 13)
    simp only [hfunct, h7, crs1Low_low, cimmB_low, BitVec.ofNat_eq_ofNat, BitVec.reduceEq, ↓reduceIte, Option.map_some, Option.getD_some, decide_true, Bool.or_true,
      decide_false, Bool.or_self, Bool.false_eq_true]
    exact .of_class (c := .branch)
      ⟨hb.is.lui, hb.is.auipc, hb.is.jal, hb.is.jalr, rfl, hb.is.load, hb.is.store, hb.is.imm, hb.is.reg⟩
      (plain_q1 hlow hq ⟨hb.retirq, hb.waitirq⟩ (by simp)) (by simp only [funct3_setImmB, funct3_setFunct3]; rfl)
      fun himm => ⟨rfl, rfl, himm.trans (immB_setImmB ..)⟩

include hlow in
theorem plain_q2 {f' : DecodeFirst} {q : Word32}
    (h : f'.instrRetirq = false ∧ f'.instrWaitirq = false) (hop : opcode q = opcode l) (h3 : funct3 q ≠ 1#3) : Plain f' q :=
  Blank.plain hlow h hop fun _ => not_ebreak_of_funct3 h3

theorem not_ebreak_of_slli (h : l.extractLsb 15 13 = 0#3) :
    (setFunct3 0b001 (setFunct7 0b0000000 l)).extractLsb 15 0 ≠ 0x9002 := by
  intro hl
  have hbits := extract_extract (setFunct3 0b001 (setFunct7 0b0000000 l)) 15 0 (m := 1) (n := 16) (by omega)
  have hq : (setFunct3 0b001 (setFunct7 0b0000000 l)).extractLsb' (0 + 15) 1 = l.extractLsb' (13 + 2) 1 := by
    rw [setFunct3_eq, setFunct7_eq]
    exact (extract_splice_of_ge (by omega) (by omega)).trans (extract_splice_of_le (by omega) (by omega))
  rw [hq, ← extract_extract l 2 13 (m := 1) (n := 3) (by omega)] at hbits
  have hno := (congrArg (·.extractLsb' 15 1) hl).symm.trans (hbits.trans (congrArg (·.extractLsb' 2 1) h))
  revert hno
  decide

/-- `c.ebreak`, field by field. -/
theorem ebreak_eq (hq : l.extractLsb 1 0 = 0b10#2) (h4 : l.extractLsb 15 13 = 4#3) (h12 : l.extractLsb 12 12 = 1#1)
    (hd : l.extractLsb 11 7 = 0#5) (hs : l.extractLsb 6 2 = 0#5) : l.extractLsb 15 0 = 0x9002#16 := by
  have h1 : l.extractLsb' 0 7 = 0b0000010#7 := (extract_add_eq_iff l 0 5 2).2 ⟨hs, hq⟩
  have h2 : l.extractLsb' 0 12 = 0b000000000010#12 := (extract_add_eq_iff l 0 5 7).2 ⟨hd, h1⟩
  have h3 : l.extractLsb' 0 13 = 0b1000000000010#13 := (extract_add_eq_iff l 0 1 12).2 ⟨h12, h2⟩
  exact (extract_add_eq_iff l 0 3 13).2 ⟨h4, h3⟩

theorem not_ebreak_of_funct {q : Word32} (h : q.extractLsb 15 13 ≠ 4#3) : q.extractLsb 15 0 ≠ 0x9002 := by
  intro hl
  have hbits := extract_low q (n := 15) (u := 15) (l := 13) (by omega) (by omega)
  rw [hl] at hbits
  exact h hbits.symm

include hb hlow in
theorem decoded_ebreak (h : l.extractLsb 15 0 = 0x9002#16) : Decoded (.base .environment) f (.ofWord l f x) := by
  have hne {o : BitVec 7} (ho : o.extractLsb 1 0 = 0b11) : l.extractLsb 6 0 ≠ o := opcode_compressed hlow ho
  have h1 := hne (o := 0b1110011#7) (by decide)
  have h2 := hne (o := 0b0001111#7) (by decide)
  have h3 := hne (o := 0b0001011#7) (by decide)
  refine ⟨⟨classFlags_of_system hb.is rfl, ?_⟩, not_mulDiv_compressed hlow rfl⟩
  constructor
  case counter =>
    intro c
    cases c <;> simp [DecodeSecond.instrCounter, DecodeSecond.ofWord, Insn.kind, h1]
  all_goals simp [DecodeSecond.ofWord, Insn.kind, hb.retirq, hb.waitirq, h, h1, h2, h3]

include hb hlow in
theorem decoded_q2 (hq : l.extractLsb 1 0 = 0b10#2) :
    Decoded (((decodeC2 (l.extractLsb 15 0)).map Insn.base).getD .illegal) (.ofQ2 l f)
      (.ofWord (expandQ2 l l) (.ofQ2 l f) x) := by
  have hfunct := extract_low l (n := 15) (u := 15) (l := 13) (by omega) (by omega)
  have hbit := extract_low l (n := 15) (u := 12) (l := 12) (by omega) (by omega)
  have hall1 : ∀ v : BitVec 1, v = 0#1 ∨ v = 1#1 := by decide
  unfold decodeC2 DecodeFirst.ofQ2 expandQ2
  by_cases h0 : l.extractLsb 15 13 = 0#3
  · simp only [hfunct, hbit, h0, crd_low, crs2_low, BitVec.ofNat_eq_ofNat, ↓reduceIte]
    rcases hall1 (l.extractLsb 12 12) with hz | hz
    · simp only [hz, BitVec.reduceEq, ↓reduceIte, Option.map_some, Option.getD_some]
      exact .of_class (c := .imm)
        ⟨hb.is.lui, hb.is.auipc, hb.is.jal, hb.is.jalr, hb.is.branch, hb.is.load, hb.is.store, rfl, hb.is.reg⟩
        (Blank.plain hlow ⟨hb.retirq, hb.waitirq⟩ (by simp) fun _ => not_ebreak_of_slli h0)
        (by simp only [funct3_setFunct3, funct7_setFunct3, funct7_setFunct7]; rfl) fun _ => ⟨rfl, rfl, rfl⟩
    · simp only [hz, BitVec.reduceEq, ↓reduceIte, Option.map_none, Option.getD_none]
      exact .of_class hb.is (Blank.plain hlow ⟨hb.retirq, hb.waitirq⟩ (by simp) fun _ => not_ebreak_of_slli h0) rfl
        fun _ => not_mulDiv_compressed hlow (by simp)
  by_cases h2 : l.extractLsb 15 13 = 2#3
  · simp only [hfunct, h2, crd_low, cimmLwsp_low, BitVec.ofNat_eq_ofNat, BitVec.reduceEq, ↓reduceIte]
    by_cases hz : l.extractLsb 11 7 = 0#5
    · simp only [hz, ne_eq, not_true_eq_false, ↓reduceIte, Option.map_none, Option.getD_none]
      exact .of_class hb.is (plain_q2 hlow ⟨hb.retirq, hb.waitirq⟩ (by simp) (by simp)) rfl
        fun _ => not_mulDiv_compressed hlow (by simp)
    · simp only [hz, ne_eq, not_false_eq_true, ↓reduceIte, Option.map_some, Option.getD_some]
      exact .of_class (c := .load)
        ⟨hb.is.lui, hb.is.auipc, hb.is.jal, hb.is.jalr, hb.is.branch, rfl, hb.is.store, hb.is.imm, hb.is.reg⟩
        (plain_q2 hlow ⟨hb.retirq, hb.waitirq⟩ (by simp) (by simp)) (by simp only [funct3_setFunct3]; rfl)
        fun himm => ⟨rfl, rfl, himm.trans ((immI_setFunct3 ..).trans (immI_setImmI ..))⟩
  by_cases h4 : l.extractLsb 15 13 = 4#3
  · simp only [hfunct, hbit, h4, crd_low, crs2_low, BitVec.ofNat_eq_ofNat, BitVec.reduceEq, ↓reduceIte]
    rcases hall1 (l.extractLsb 12 12) with h12 | h12 <;> by_cases hs : l.extractLsb 6 2 = 0#5 <;>
      by_cases hd : l.extractLsb 11 7 = 0#5 <;>
      simp only [h12, hs, hd, BitVec.reduceEq, ne_eq, not_true_eq_false, not_false_eq_true, ↓reduceIte, Option.map_none,
        Option.map_some, Option.getD_none, Option.getD_some]
    · exact .of_class hb.is (plain_q2 hlow ⟨hb.retirq, hb.waitirq⟩ (by simp) (by simp)) rfl
        fun _ => not_mulDiv_compressed hlow (by simp)
    · exact .of_class (c := .jalr)
        ⟨hb.is.lui, hb.is.auipc, hb.is.jal, rfl, hb.is.branch, hb.is.load, hb.is.store, hb.is.imm, hb.is.reg⟩
        (plain_q2 hlow ⟨hb.retirq, hb.waitirq⟩ (by simp) (by simp)) rfl fun himm => ⟨rfl, rfl, himm.trans (immI_setImmI ..)⟩
    · exact .of_class (c := .reg)
        ⟨hb.is.lui, hb.is.auipc, hb.is.jal, hb.is.jalr, hb.is.branch, hb.is.load, hb.is.store, hb.is.imm, rfl⟩
        (plain_q2 hlow ⟨hb.retirq, hb.waitirq⟩ (by simp) (by simp))
        (by simp only [funct3_setFunct7, funct3_setFunct3, funct7_setFunct7]; rfl) fun _ => ⟨congrArg (BitVec.setWidth 6) hd, rfl, rfl⟩
    · exact .of_class (c := .reg)
        ⟨hb.is.lui, hb.is.auipc, hb.is.jal, hb.is.jalr, hb.is.branch, hb.is.load, hb.is.store, hb.is.imm, rfl⟩
        (plain_q2 hlow ⟨hb.retirq, hb.waitirq⟩ (by simp) (by simp))
        (by simp only [funct3_setFunct7, funct3_setFunct3, funct7_setFunct7]; rfl) fun _ => ⟨rfl, rfl, rfl⟩
    · exact decoded_ebreak hb hlow (ebreak_eq hq h4 h12 hd hs)
    · exact .of_class (c := .jalr)
        ⟨hb.is.lui, hb.is.auipc, hb.is.jal, rfl, hb.is.branch, hb.is.load, hb.is.store, hb.is.imm, hb.is.reg⟩
        (plain_q2 hlow ⟨hb.retirq, hb.waitirq⟩ (by simp) (by simp)) rfl fun himm => ⟨rfl, rfl, himm.trans (immI_setImmI ..)⟩
    · exact .of_class (c := .reg)
        ⟨hb.is.lui, hb.is.auipc, hb.is.jal, hb.is.jalr, hb.is.branch, hb.is.load, hb.is.store, hb.is.imm, rfl⟩
        (plain_q2 hlow ⟨hb.retirq, hb.waitirq⟩ (by simp) (by simp))
        (by simp only [funct3_setFunct7, funct3_setFunct3, funct7_setFunct7]; rfl)
        fun _ => ⟨congrArg (BitVec.setWidth 6) hd, congrArg (BitVec.setWidth 6) hd, rfl⟩
    · exact .of_class (c := .reg)
        ⟨hb.is.lui, hb.is.auipc, hb.is.jal, hb.is.jalr, hb.is.branch, hb.is.load, hb.is.store, hb.is.imm, rfl⟩
        (plain_q2 hlow ⟨hb.retirq, hb.waitirq⟩ (by simp) (by simp))
        (by simp only [funct3_setFunct7, funct3_setFunct3, funct7_setFunct7]; rfl) fun _ => ⟨rfl, rfl, rfl⟩
  by_cases h6 : l.extractLsb 15 13 = 6#3
  · simp only [hfunct, h6, crs2_low, cimmSwsp_low, BitVec.ofNat_eq_ofNat, BitVec.reduceEq, ↓reduceIte, Option.map_some,
      Option.getD_some]
    exact .of_class (c := .store)
      ⟨hb.is.lui, hb.is.auipc, hb.is.jal, hb.is.jalr, hb.is.branch, hb.is.load, rfl, hb.is.imm, hb.is.reg⟩
      (plain_q2 hlow ⟨hb.retirq, hb.waitirq⟩ (by simp) (by simp)) (by simp only [funct3_setFunct3]; rfl)
      fun himm => ⟨rfl, rfl, himm.trans ((immS_setFunct3 ..).trans (immS_setImmS ..))⟩
  · simp only [hfunct, h0, h2, h4, h6, BitVec.ofNat_eq_ofNat, ↓reduceIte, Option.map_none, Option.getD_none]
    exact .of_class hb.is (Blank.plain hlow ⟨hb.retirq, hb.waitirq⟩ rfl fun _ => not_ebreak_of_funct h4) rfl
      fun _ => not_mulDiv_compressed hlow rfl

end Quadrants

/-- A word is decoded as the instruction at its start, and what is behind a compressed one does
not matter. -/
theorem decoded_ofWord (l x : Word32) : Decoded (.ofWord l) (.ofWord l) (.ofWord (expandQ l l) (.ofWord l) x) := by
  by_cases hlow : l.extractLsb 1 0 = 0b11#2
  · have hq : expandQ l l = l := by
      unfold expandQ
      simp only [hlow, BitVec.ofNat_eq_ofNat, BitVec.reduceEq, ↓reduceIte]
    have hf : DecodeFirst.ofWord l = .ofFull l := by
      unfold DecodeFirst.ofWord
      rw [if_neg (not_not.2 hlow)]
    rw [hq, hf]
    exact decoded_full hlow
  · have hb := blank_compressed hlow
    have hq := extract_low l (n := 15) (u := 1) (l := 0) (by omega) (by omega)
    have hall : ∀ v : BitVec 2, v = 0b00#2 ∨ v = 0b01#2 ∨ v = 0b10#2 ∨ v = 0b11#2 := by decide
    unfold Insn.ofWord DecodeFirst.ofWord DecodeFirst.ofCompressed expandQ decodeC
    rw [if_pos hlow]
    rcases hall (l.extractLsb 1 0) with h | h | h | h
    · simp only [hq, h, BitVec.ofNat_eq_ofNat, ne_eq, ↓reduceIte]
      exact decoded_q0 hb hlow h
    · simp only [hq, h, BitVec.ofNat_eq_ofNat, BitVec.reduceEq, ne_eq, ↓reduceIte]
      exact decoded_q1 hb hlow h (cimmJ_low l).symm rfl
    · simp only [hq, h, BitVec.ofNat_eq_ofNat, BitVec.reduceEq, ne_eq, ↓reduceIte]
      exact decoded_q2 hb hlow h
    · exact absurd h hlow

end RiscvSoc.Cpu
