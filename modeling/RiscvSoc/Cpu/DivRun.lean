import RiscvSoc.Cpu.Pcpi
import RiscvSoc.Lib.Restoring
import RiscvSoc.Lib.Rv32.MulDiv
import RiscvSoc.Lib.Service
/-!
# The divider gives the quotients and remainders of the M extension

A divide instruction is answered 36 cycles after it is presented, whatever its operands:
the magnitudes are divided one bit at a time, and the signs put in at the end. Division by
zero and the quotient that is out of range need nothing of their own.
-/

namespace RiscvSoc.Cpu

open Rv32 Sync

/-- The divide instruction that is presented. -/
def PcpiReq.divOp (i : PcpiReq) : Option DivOp := if i.valid then DivOp.ofInsn i.insn else none

/-- What the divider sees: the request, and the value of `pcpi_rd` where the source gives none. -/
structure DivIn where
  req : PcpiReq
  x : Word32

namespace PcpiDiv

def edge (resetn : Bool) (s : PcpiDiv) (i : DivIn) : PcpiDiv := s.step resetn i.req i.x

variable {s : PcpiDiv} {i : DivIn} {op : DivOp}

/-! ## The decoder -/

/-- The decoded instruction is `op`. -/
structure Decoded (op : DivOp) (s : PcpiDiv) : Prop where
  div : s.instrDiv = decide (op = .div)
  divu : s.instrDivu = decide (op = .divu)
  rem : s.instrRem = decide (op = .rem)
  remu : s.instrRemu = decide (op = .remu)

theorem divOp_eq_some {i : PcpiReq} : i.divOp = some op ↔ i.isMulDiv = true ∧ i.funct3 = op.funct3 := by
  have hdiv : i.isMulDiv = (i.valid && Rv32.isMulDiv i.insn) := by
    simp [PcpiReq.isMulDiv, Rv32.isMulDiv, Bool.and_assoc]
  rw [hdiv, PcpiReq.divOp, PcpiReq.funct3]
  cases i.valid <;> simp [DivOp.ofInsn_eq_some]

theorem decoded_edge (h : i.req.divOp = some op) (hr : s.pcpiReady = false) : Decoded op (s.edge true i) := by
  obtain ⟨hi, hf⟩ := divOp_eq_some.1 h
  refine ⟨?_, ?_, ?_, ?_⟩ <;> simp [edge, step, decode, hi, hf, hr] <;> cases op <;> decide

theorem not_decoded_edge (h : i.req.divOp = none) : (s.edge true i).instrAnyDivRem = false := by
  have hno (op : DivOp) (hi : i.req.isMulDiv = true) (_ : s.pcpiReady = false) : i.req.funct3 ≠ op.funct3 := by
    intro hop
    rw [divOp_eq_some.2 ⟨hi, hop⟩] at h
    cases h
  simp only [edge, step, decode, instrAnyDivRem, Bool.true_and, Bool.or_eq_false_iff, Bool.and_eq_false_imp,
    decide_eq_false_iff_not, Bool.and_eq_true, Bool.not_eq_true', and_imp]
  exact ⟨⟨⟨hno .div, hno .divu⟩, hno .rem⟩, hno .remu⟩

theorem Decoded.any (h : Decoded op s) : s.instrAnyDivRem = true := by
  cases op <;> simp [instrAnyDivRem, h.div, h.divu, h.rem, h.remu]

/-- `div` and `rem` read their operands as signed. -/
def signed (op : DivOp) : Bool := op = .div || op = .rem

theorem Decoded.signed (h : Decoded op s) : (s.instrDiv || s.instrRem) = signed op := by
  rw [h.div, h.rem, PcpiDiv.signed]

/-- `div` and `divu` give the quotient. -/
theorem Decoded.quotient (h : Decoded op s) : (s.instrDiv || s.instrDivu) = (op = .div || op = .divu : Bool) := by
  rw [h.div, h.divu]

/-! ## The stages -/

/-- The cycles from the request to the answer. -/
def latency : ℕ := 36

/-- No instruction, and none on its way that would start the work. -/
structure Quiet (s : PcpiDiv) : Prop where
  instr : s.instrAnyDivRem = false
  wait : s.pcpiWait = true → s.pcpiWaitQ = true
  running : s.running = false
  ready : s.pcpiReady = false

/-- `op` is decoded. -/
structure Taken (op : DivOp) (s : PcpiDiv) : Prop where
  decoded : Decoded op s
  wait : s.pcpiWait = false
  running : s.running = false
  ready : s.pcpiReady = false

/-- The operands are taken in. -/
structure Starts (op : DivOp) (s : PcpiDiv) : Prop where
  decoded : Decoded op s
  wait : s.pcpiWait = true
  waitQ : s.pcpiWaitQ = false
  ready : s.pcpiReady = false

/-- What is divided of an operand. -/
def magnitude (op : DivOp) (x : Word32) : ℕ := if signed op then x.toInt.natAbs else x.toNat

/-- The sign that is put in at the end. -/
def negative (op : DivOp) (x y : Word32) : Bool :=
  (op = .div && x.getLsbD 31 != y.getLsbD 31 && y ≠ 0) || (op = .rem && x.getLsbD 31)

/-- The registers of the work as a division under way. -/
def division (s : PcpiDiv) : Restoring.Div := ⟨s.dividend.toNat, s.divisor.toNat, s.quotient.toNat, s.quotientMsk.toNat⟩

/-- The division of the magnitudes after `j` bits. -/
def partialDivision (op : DivOp) (q : PcpiReq) (j : ℕ) : Restoring.Div :=
  Restoring.Div.step^[j] (.start 32 (magnitude op q.rs1) (magnitude op q.rs2))

/-- `j` bits of the quotient are done. -/
structure Busy (op : DivOp) (q : PcpiReq) (j : ℕ) (s : PcpiDiv) : Prop where
  decoded : Decoded op s
  wait : s.pcpiWait = true
  waitQ : s.pcpiWaitQ = true
  running : s.running = true
  ready : s.pcpiReady = false
  outsign : s.outsign = negative op q.rs1 q.rs2
  division : s.division = partialDivision op q j

structure Answers (op : DivOp) (x : Word32) (s : PcpiDiv) : Prop where
  decoded : Decoded op s
  wait : s.pcpiWait = true
  waitQ : s.pcpiWaitQ = true
  running : s.running = false
  ready : s.pcpiReady = true
  wr : s.pcpiWr = true
  rd : s.pcpiRd = x

/-! ## One edge -/

theorem start_false (h : s.pcpiWait = true → s.pcpiWaitQ = true) : s.start = false := by
  cases hw : s.pcpiWait <;> simp [start, hw, h]

theorem Quiet.idle (h : Quiet s) (hi : i.req.divOp = none) : Quiet (s.edge true i) where
  instr := not_decoded_edge hi
  wait := by simp [edge, step, decode, h.instr]
  running := by simp [edge, step, work, start_false h.wait, finish, h.running]
  ready := by simp [edge, step, answer, finish, h.running]

theorem Quiet.taken (h : Quiet s) (hi : i.req.divOp = some op) : Taken op (s.edge true i) where
  decoded := decoded_edge hi h.ready
  wait := by simp [edge, step, decode, h.instr]
  running := by simp [edge, step, work, start_false h.wait, finish, h.running]
  ready := by simp [edge, step, answer, finish, h.running]

theorem Taken.starts (h : Taken op s) (hi : i.req.divOp = some op) : Starts op (s.edge true i) where
  decoded := decoded_edge hi h.ready
  wait := by simp [edge, step, decode, h.decoded.any]
  waitQ := by simp [edge, step, decode, h.wait]
  ready := by simp [edge, step, answer, finish, h.running]

theorem magnitude_lt (op : DivOp) (x : Word32) : magnitude op x < 2 ^ 32 := by
  have h := x.isLt
  have h1 := BitVec.toInt_eq_toNat_cond x
  unfold magnitude
  split <;> [split at h1; skip] <;> omega

/-- Bit 31 is the sign. -/
theorem sign_bit (x : Word32) : x.getLsbD 31 = decide (x.toInt < 0) := by
  rw [← BitVec.msb_eq_getLsbD_last (x := x), BitVec.msb_eq_toInt]

theorem magnitude_eq (op : DivOp) (x : Word32) :
    magnitude op x = (if signed op && x.getLsbD 31 then -x else x).toNat := by
  have h := x.isLt
  have h1 := BitVec.toInt_eq_toNat_cond x
  rw [magnitude, sign_bit]
  cases signed op
  · rfl
  · by_cases hneg : x.toInt < 0
    · simp only [hneg, decide_true, Bool.and_true, if_true, BitVec.toNat_neg]
      split at h1 <;> omega
    · simp only [hneg, decide_false, Bool.and_false, if_true]
      split at h1 <;> simp <;> omega

/-- Of the negation of 63 bits the shift keeps the lower 32. -/
theorem divisor_start (neg : Bool) (y : Word32) :
    ((if neg then -y.setWidth 63 else y.setWidth 63) <<< 31 : BitVec 63).toNat =
      (if neg then -y else y).toNat * 2 ^ 32 / 2 := by
  have h := y.isLt
  cases neg <;> simp [BitVec.toNat_shiftLeft, Nat.shiftLeft_eq] <;> omega

theorem Starts.busy (h : Starts op s) (hi : i.req.divOp = some op) : Busy op i.req 0 (s.edge true i) where
  decoded := decoded_edge hi h.ready
  wait := by simp [edge, step, decode, h.decoded.any]
  waitQ := by simp [edge, step, decode, h.wait]
  running := by simp [edge, step, work, start, h.wait, h.waitQ]
  ready := by simp [edge, step, answer, start, h.wait, h.waitQ]
  outsign := by
    simp only [edge, step, work, start, h.wait, h.waitQ, h.decoded.div, h.decoded.rem, negative]
    rfl
  division := by
    have hdiv := divisor_start (signed op && i.req.rs2.getLsbD 31) i.req.rs2
    rw [← magnitude_eq] at hdiv
    have hmag := magnitude_eq op i.req.rs1
    have hstart : s.start = true := by simp [start, h.wait, h.waitQ]
    simp only [PcpiDiv.division, edge, step, work, hstart, h.decoded.signed]
    simp only [Bool.not_true, Bool.false_eq_true, if_false, if_true, hdiv, ← hmag]
    rfl

/-- The mask is used up after 32 bits. -/
theorem Busy.finish {j : ℕ} (h : Busy op i.req j s) (hj : j ≤ 32) : s.finish = decide (j = 32) := by
  have hmask : s.quotientMsk.toNat = 2 ^ (32 - j) / 2 :=
    (congrArg Restoring.Div.mask h.division).trans (Restoring.Div.left_iterate (magnitude_lt op _) hj).mask
  rw [PcpiDiv.finish, h.running, Bool.and_true, decide_eq_decide, ← BitVec.toNat_inj, hmask]
  rcases hj.lt_or_eq with hlt | rfl
  · obtain ⟨k, hk⟩ := Nat.exists_eq_add_of_lt hlt
    have hpow : 2 ^ (32 - j) / 2 = 2 ^ k := by
      rw [show 32 - j = k + 1 by omega, Nat.pow_succ, Nat.mul_div_cancel _ two_pos]
    have hpos := Nat.two_pow_pos k
    rw [hpow]
    exact iff_of_false hpos.ne' hlt.ne
  · simp

/-- What the registers do is a step of the numbers that they hold. -/
theorem division_work (h0 : s.start = false) (h : s.finish = false) : (s.edge true i).division = s.division.step := by
  have hsub : (if s.divisor.toNat ≤ s.dividend.toNat then (s.dividend.setWidth 63 - s.divisor).setWidth 32
      else s.dividend).toNat = if s.divisor.toNat ≤ s.dividend.toNat then s.dividend.toNat - s.divisor.toNat else s.dividend.toNat := by
    have hlt := s.dividend.isLt
    split
    · rename_i hle
      have hle' : s.divisor ≤ s.dividend.setWidth 63 := by
        rw [BitVec.le_def, BitVec.toNat_setWidth_of_le (by omega)]
        exact hle
      rw [BitVec.toNat_setWidth, BitVec.toNat_sub_of_le hle', BitVec.toNat_setWidth_of_le (by omega),
        Nat.mod_eq_of_lt (by omega)]
    · rfl
  simp only [division, edge, step, work, h0, h, Restoring.Div.step]
  simp only [Bool.not_true, Bool.false_eq_true, if_false, hsub, Restoring.Div.mk.injEq]
  refine ⟨rfl, ?_, ?_, ?_⟩
  · simp [Nat.shiftRight_eq_div_pow]
  · exact apply_ite BitVec.toNat _ _ _
  · simp [Nat.shiftRight_eq_div_pow]

theorem Busy.busy {j : ℕ} (h : Busy op i.req j s) (hi : i.req.divOp = some op) (hj : j < 32) :
    Busy op i.req (j + 1) (s.edge true i) := by
  have hstart := start_false fun _ => h.waitQ
  have hfin : s.finish = false := by rw [h.finish hj.le, decide_eq_false hj.ne]
  refine ⟨decoded_edge hi h.ready, ?_, ?_, ?_, ?_, ?_, ?_⟩
  · simp [edge, step, decode, h.decoded.any]
  · simp [edge, step, decode, h.wait]
  · simp [edge, step, work, hstart, hfin, h.running]
  · simp [edge, step, answer, hfin]
  · simp [edge, step, work, hstart, hfin, h.outsign]
  · rw [division_work hstart hfin, h.division, partialDivision, partialDivision, Function.iterate_succ_apply']

/-! ## The result -/

theorem tdiv_natAbs (a b : ℤ) :
    a.tdiv b = if decide (a < 0) != decide (b < 0) then -((a.natAbs / b.natAbs : ℕ) : ℤ) else (a.natAbs / b.natAbs : ℕ) := by
  have hpos (m : ℕ) : ¬ (m : ℤ) < 0 := by omega
  obtain ⟨m, rfl | rfl⟩ := a.eq_nat_or_neg <;> obtain ⟨n, rfl | rfl⟩ := b.eq_nat_or_neg <;>
    rcases Nat.eq_zero_or_pos m with rfl | hm <;> rcases Nat.eq_zero_or_pos n with rfl | hn <;>
    simp [*]

theorem tmod_natAbs (a b : ℤ) :
    a.tmod b = if decide (a < 0) then -((a.natAbs % b.natAbs : ℕ) : ℤ) else (a.natAbs % b.natAbs : ℕ) := by
  have hpos (m : ℕ) : ¬ (m : ℤ) < 0 := by omega
  obtain ⟨m, rfl | rfl⟩ := a.eq_nat_or_neg <;> obtain ⟨n, rfl | rfl⟩ := b.eq_nat_or_neg <;>
    rcases Nat.eq_zero_or_pos m with rfl | hm <;>
    simp [Int.tmod_eq_emod_of_nonneg, *]

theorem ofInt_signed (neg : Bool) (n : ℕ) :
    BitVec.ofInt 32 (if neg then -(n : ℤ) else n) = if neg then -BitVec.ofNat 32 n else BitVec.ofNat 32 n := by
  cases neg
  · exact BitVec.ofInt_natCast 32 n
  · exact BitVec.ofInt_neg.trans (congrArg Neg.neg (BitVec.ofInt_natCast 32 n))

theorem magnitude_eq_zero (op : DivOp) (y : Word32) : magnitude op y = 0 ↔ y = 0 := by
  rw [magnitude, ← BitVec.toInt_inj]
  split
  · exact Int.natAbs_eq_zero
  · rw [BitVec.toInt_inj, ← BitVec.toNat_inj]
    rfl

section Result

variable {q : PcpiReq} (h : s.division = partialDivision op q 32)

include h in
theorem remainder_eq : s.dividend = BitVec.ofNat 32 (magnitude op q.rs1 % magnitude op q.rs2) := by
  have hlt := magnitude_lt op q.rs1
  have hrem : s.dividend.toNat = (partialDivision op q 32).dividend := congrArg Restoring.Div.dividend h
  rw [show s.dividend = BitVec.ofNat 32 s.dividend.toNat by simp, hrem, partialDivision]
  rcases Nat.eq_zero_or_pos (magnitude op q.rs2) with h0 | hpos
  · rw [h0, (Restoring.Div.iterate_zero hlt).2, Nat.mod_zero]
  · rw [(Restoring.Div.iterate_pos hlt hpos).2]

include h in
theorem quotient_eq : s.quotient = if q.rs2 = 0 then -1 else BitVec.ofNat 32 (magnitude op q.rs1 / magnitude op q.rs2) := by
  have hlt := magnitude_lt op q.rs1
  have hquo : s.quotient.toNat = (partialDivision op q 32).quotient := congrArg Restoring.Div.quotient h
  rw [show s.quotient = BitVec.ofNat 32 s.quotient.toNat by simp, hquo, partialDivision]
  split
  · rename_i h0
    rw [(magnitude_eq_zero op q.rs2).2 h0, (Restoring.Div.iterate_zero hlt).1]
    rfl
  · rename_i h0
    rw [(Restoring.Div.iterate_pos hlt (Nat.pos_of_ne_zero fun hz => h0 ((magnitude_eq_zero op q.rs2).1 hz))).1]

include h in
/-- The signs put in, the quotient and the remainder are those that the instruction asks for. -/
theorem result : (if (op = .div || op = .divu : Bool) then (if negative op q.rs1 q.rs2 then -s.quotient else s.quotient)
      else if negative op q.rs1 q.rs2 then -s.dividend else s.dividend) = op.eval q.rs1 q.rs2 := by
  have hrem := remainder_eq h
  have hquo := quotient_eq h
  cases op with
  | div =>
    have hneg : negative .div q.rs1 q.rs2 =
        (decide (q.rs1.toInt < 0) != decide (q.rs2.toInt < 0) && decide (q.rs2 ≠ 0#32)) := by
      rw [← sign_bit, ← sign_bit]
      simp [negative]
    simp only [hquo, hneg, DivOp.eval, tdiv_natAbs, ofInt_signed]
    by_cases h0 : q.rs2 = 0#32
    · simp [h0]
    · simp [magnitude, signed, h0]
  | divu =>
    simp only [hquo, DivOp.eval]
    simp [negative, magnitude, signed]
  | rem =>
    have hneg : negative .rem q.rs1 q.rs2 = decide (q.rs1.toInt < 0) := by
      rw [← sign_bit]
      simp [negative]
    simp only [hrem, hneg, DivOp.eval, tmod_natAbs, ofInt_signed]
    by_cases h0 : q.rs2 = 0#32
    · have hval := tmod_natAbs q.rs1.toInt 0
      rw [Int.tmod_zero, Int.natAbs_zero, Nat.mod_zero] at hval
      have hx : BitVec.ofInt 32 q.rs1.toInt = q.rs1 := BitVec.ofInt_toInt
      rw [hval, ofInt_signed] at hx
      simpa [magnitude, signed, h0] using hx
    · simp [magnitude, signed, h0]
  | remu =>
    simp only [hrem, DivOp.eval]
    by_cases h0 : q.rs2 = 0#32
    · simp [negative, magnitude, signed, h0]
    · simp [negative, magnitude, signed, h0]

end Result

theorem Busy.answers (h : Busy op i.req 32 s) (hi : i.req.divOp = some op) :
    Answers op (op.eval i.req.rs1 i.req.rs2) (s.edge true i) := by
  have hstart := start_false fun _ => h.waitQ
  have hfin : s.finish = true := by rw [h.finish le_rfl, decide_eq_true rfl]
  refine ⟨decoded_edge hi h.ready, ?_, ?_, ?_, ?_, ?_, ?_⟩
  · simp [edge, step, decode, h.decoded.any]
  · simp [edge, step, decode, h.wait]
  · simp [edge, step, work, hstart, hfin]
  · simp [edge, step, answer, hstart, hfin]
  · simp [edge, step, answer, hstart, hfin]
  · rw [← result h.division, ← h.outsign, ← h.decoded.quotient]
    simp [edge, step, answer, hstart, hfin]

/-- The instruction is not taken again in the cycle of its answer. -/
theorem Answers.quiet {x : Word32} (h : Answers op x s) : Quiet (s.edge true i) where
  instr := by simp [edge, step, decode, instrAnyDivRem, h.ready]
  wait _ := by simp [edge, step, decode, h.wait]
  running := by simp [edge, step, work, start_false fun _ => h.waitQ, finish, h.running]
  ready := by simp [edge, step, answer, finish, h.running]

/-! ## Whole runs -/

/-- The stages by their numbers. -/
def Stage (op : DivOp) (q : PcpiReq) (k : ℕ) (s : PcpiDiv) : Prop :=
  if k = 1 then Taken op s
  else if k = 2 then Starts op s
  else if k < 36 then Busy op q (k - 3) s
  else Answers op (op.eval q.rs1 q.rs2) s

theorem Stage.next {k : ℕ} (h : Stage op i.req k s) (hi : i.req.divOp = some op) (h0 : 0 < k) (hk : k < latency) :
    Stage op i.req (k + 1) (s.edge true i) := by
  unfold latency at hk
  unfold Stage at h ⊢
  split at h
  · subst k
    exact h.starts hi
  · split at h
    · subst k
      exact h.busy hi
    · rw [if_neg (by omega), if_neg (by omega)]
      split
      · rw [show k + 1 - 3 = k - 3 + 1 by omega]
        exact h.busy hi (by omega)
      · rw [show k - 3 = 32 by omega] at h
        exact h.answers hi

theorem Stage.ready {q : PcpiReq} {k : ℕ} (h : Stage op q k s) (hk : k ≤ latency) : s.pcpiReady = decide (k = latency) := by
  unfold latency at hk ⊢
  unfold Stage at h
  split at h
  · rw [h.ready, decide_eq_false (by omega)]
  · split at h
    · rw [h.ready, decide_eq_false (by omega)]
    · split at h
      · rw [h.ready, decide_eq_false (by omega)]
      · rw [h.ready, decide_eq_true (by omega)]

/-- From its start on the unit says that it is at work. -/
theorem Stage.waits {q : PcpiReq} {k : ℕ} (h : Stage op q k s) (hk : 2 ≤ k) : s.pcpiWait = true := by
  unfold Stage at h
  rw [if_neg (by omega)] at h
  split at h
  · exact h.wait
  · split at h <;> exact h.wait

/-- The divider as a machine that answers one request at a time. -/
def service : Service edge DivOp PcpiReq where
  port i := i.req
  req := PcpiReq.divOp
  ready s := s.pcpiReady
  latency _ := latency
  Quiet := Quiet
  Stage := Stage
  Drained := Quiet
  latency_pos _ := Nat.succ_pos _
  quiet_ready h := h.ready
  idle := Quiet.idle
  begin h hi := h.taken hi
  next := Stage.next
  stage_ready h _ hk := h.ready hk
  drain h _ := Answers.quiet h
  drained_ready h := h.ready
  rest := Quiet.idle
  busy hi hr h := by
    have hno := h.instr
    rw [(decoded_edge hi hr).any] at hno
    cases hno

theorem quiet_reset (s : PcpiDiv) (i : DivIn) : Quiet (s.edge false i) where
  instr := by simp [edge, step, decode, instrAnyDivRem]
  wait := by simp [edge, step, decode]
  running := by simp [edge, step, work]
  ready := by simp [edge, step, answer]

/-- With every divide instruction held until it is answered and then withdrawn, each is
answered with its quotient or remainder 36 cycles after it is presented, once and not
before, and there is no other answer. -/
theorem divider_answers (r : Run edge) (hpolite : service.Polite r) :
    (∀ n op, service.Begins r n op →
      (∀ k < latency, (r.st (n + k)).pcpiReady = false) ∧ (r.st (n + latency)).pcpiReady = true ∧
        (r.st (n + latency)).pcpiWr = true ∧
        (r.st (n + latency)).pcpiRd = op.eval (r.inp n).req.rs1 (r.inp n).req.rs2) ∧
    ∀ n, (r.st n).pcpiReady = true → ∃ m op, service.Begins r m op ∧ n = m + latency := by
  have h0 : service.Quiet (r.st 0) := quiet_reset r.powerUp r.resetInp
  refine ⟨fun n op hb => ?_, fun n hn => service.requested hpolite h0 hn⟩
  obtain ⟨hno, hready, hstage⟩ := service.answered hpolite h0 hb
  have hans : Answers op (op.eval (r.inp n).req.rs1 (r.inp n).req.rs2) (r.st (n + latency)) := hstage
  exact ⟨hno, hready, hans.wr, hans.rd⟩

/-- `rem x1, x2, x3` of the least number and `-1`. -/
def remReq : PcpiReq := ⟨true, 0x023160B3, 0x80000000, -1⟩

/-- It is presented in the first cycle, held until it is answered and withdrawn. -/
def remRun : Run edge where
  powerUp := default
  resetInp := ⟨remReq, 0⟩
  inp n := if n ≤ latency then ⟨remReq, 0⟩ else ⟨⟨false, 0, 0, 0⟩, 0⟩

theorem rem_answered : (remRun.st 36).pcpiReady = true ∧ (remRun.st 36).pcpiRd = 0 := by
  have hop : service.req remReq = some .rem := by decide
  have hpolite : service.Polite remRun :=
    Service.polite_once (i := ⟨remReq, 0⟩) (quiet_reset default ⟨remReq, 0⟩) hop rfl fun n => rfl
  obtain ⟨-, hready, -, hrd⟩ := (divider_answers remRun hpolite).1 0 .rem ⟨hop, .inl rfl⟩
  have hval : DivOp.rem.eval remReq.rs1 remReq.rs2 = 0 := by decide
  exact ⟨hready, hrd.trans hval⟩

end PcpiDiv

end RiscvSoc.Cpu
