import RiscvSoc.Cpu.Pcpi
import RiscvSoc.Lib.Rv32.MulDiv
import RiscvSoc.Lib.Service
/-!
# The multiplier gives the products of the M extension

A multiply instruction is answered 36 cycles after it is presented, `mul`, or 68, the
others; in between the multiplier goes through the stages below. The answer does not come
before, and no answer comes without a request.
-/

namespace RiscvSoc.Cpu

open Rv32 Sync

/-- The multiply instruction that is presented. -/
def PcpiReq.mulOp (i : PcpiReq) : Option MulOp := if i.valid then MulOp.ofInsn i.insn else none

namespace PcpiMul

variable {s : PcpiMul} {i : PcpiReq} {op : MulOp}

/-! ## The decoder -/

/-- The decoded instruction is `op`. -/
structure Decoded (op : MulOp) (s : PcpiMul) : Prop where
  mul : s.instrMul = decide (op = .mul)
  mulh : s.instrMulh = decide (op = .mulh)
  mulhsu : s.instrMulhsu = decide (op = .mulhsu)
  mulhu : s.instrMulhu = decide (op = .mulhu)

theorem mulOp_eq_some : i.mulOp = some op ↔ i.isMulDiv = true ∧ i.funct3 = op.funct3 := by
  have hdiv : i.isMulDiv = (i.valid && Rv32.isMulDiv i.insn) := by
    simp [PcpiReq.isMulDiv, Rv32.isMulDiv, Bool.and_assoc]
  rw [hdiv, PcpiReq.mulOp, PcpiReq.funct3]
  cases i.valid <;> simp [MulOp.ofInsn_eq_some]

theorem decoded_step (h : i.mulOp = some op) : Decoded op (s.step true i) := by
  obtain ⟨hi, hf⟩ := mulOp_eq_some.1 h
  refine ⟨?_, ?_, ?_, ?_⟩ <;> simp [step, decode, hi, hf] <;> cases op <;> decide

theorem not_decoded_step (h : i.mulOp = none) : (s.step true i).instrAnyMul = false := by
  have hno (op : MulOp) (hi : i.isMulDiv = true) : i.funct3 ≠ op.funct3 := by
    intro hop
    rw [mulOp_eq_some.2 ⟨hi, hop⟩] at h
    cases h
  simp only [step, decode, instrAnyMul, Bool.true_and, Bool.or_eq_false_iff, Bool.and_eq_false_imp, decide_eq_false_iff_not]
  exact ⟨⟨⟨hno .mul, hno .mulh⟩, hno .mulhsu⟩, hno .mulhu⟩

theorem Decoded.anyMul (h : Decoded op s) : s.instrAnyMul = true := by
  cases op <;> simp [instrAnyMul, h.mul, h.mulh, h.mulhsu, h.mulhu]

theorem Decoded.anyMulh (h : Decoded op s) : s.instrAnyMulh = op.upper := by
  cases op <;> simp [instrAnyMulh, h.mulh, h.mulhsu, h.mulhu, MulOp.upper]

theorem Decoded.rs1Signed (h : Decoded op s) : s.instrRs1Signed = op.signed1 := by
  cases op <;> simp [instrRs1Signed, h.mulh, h.mulhsu, MulOp.signed1]

theorem Decoded.rs2Signed (h : Decoded op s) : s.instrRs2Signed = op.signed2 := by
  cases op <;> simp [instrRs2Signed, h.mulh, MulOp.signed2]

/-! ## The stages -/

/-- The edges that add up the product of `op`. -/
def bits (op : MulOp) : ℕ := if op.upper then 64 else 32

/-- The cycles from the request to the answer. -/
def latency (op : MulOp) : ℕ := bits op + 4

/-- No instruction, and none on its way that would start the work. -/
structure Quiet (s : PcpiMul) : Prop where
  instr : s.instrAnyMul = false
  wait : s.pcpiWait = true → s.pcpiWaitQ = true
  waiting : s.mulWaiting = true
  finish : s.mulFinish = false
  ready : s.pcpiReady = false

/-- `op` is decoded. -/
structure Taken (op : MulOp) (s : PcpiMul) : Prop where
  decoded : Decoded op s
  wait : s.pcpiWait = false
  waiting : s.mulWaiting = true
  finish : s.mulFinish = false
  ready : s.pcpiReady = false

/-- The operands are taken in. -/
structure Starts (op : MulOp) (s : PcpiMul) : Prop where
  decoded : Decoded op s
  wait : s.pcpiWait = true
  waitQ : s.pcpiWaitQ = false
  waiting : s.mulWaiting = true
  finish : s.mulFinish = false
  ready : s.pcpiReady = false

/-- The operands as 64-bit words. -/
def operand1 (op : MulOp) (i : PcpiReq) : BitVec 64 := if op.signed1 then i.rs1.signExtend 64 else i.rs1.setWidth 64
def operand2 (op : MulOp) (i : PcpiReq) : BitVec 64 := if op.signed2 then i.rs2.signExtend 64 else i.rs2.setWidth 64

/-- The registers of the work as a multiplication under way. -/
def product (s : PcpiMul) : CarrySave.Mul 64 := ⟨s.rs1, s.rs2, s.rd, s.rdx⟩

/-- The product after `j` bits of the multiplier. -/
def partialProduct (op : MulOp) (i : PcpiReq) (j : ℕ) : CarrySave.Mul 64 :=
  (CarrySave.Mul.step 4)^[j] (.start (operand1 op i) (operand2 op i))

/-- Work on an instruction after its start, with `waiting`, `finish` and `ready` as they are. -/
structure Working (op : MulOp) (waiting finish ready : Bool) (s : PcpiMul) : Prop where
  decoded : Decoded op s
  wait : s.pcpiWait = true
  waitQ : s.pcpiWaitQ = true
  waiting : s.mulWaiting = waiting
  finish : s.mulFinish = finish
  ready : s.pcpiReady = ready

/-- `j` bits of the multiplier are done. -/
structure Busy (op : MulOp) (i : PcpiReq) (j : ℕ) (s : PcpiMul) : Prop extends Working op false false false s where
  counter : s.mulCounter = BitVec.ofNat 7 (bits op - 2) - BitVec.ofNat 7 j
  product : s.product = partialProduct op i j

structure Finished (op : MulOp) (i : PcpiReq) (s : PcpiMul) : Prop extends Working op true true false s where
  product : s.product = partialProduct op i (bits op)

structure Answers (op : MulOp) (x : Word32) (s : PcpiMul) : Prop extends Working op true false true s where
  wr : s.pcpiWr = true
  rd : s.pcpiRd = x

/-! ## One edge -/

theorem Quiet.idle (h : Quiet s) (hi : i.mulOp = none) : Quiet (s.step true i) where
  instr := not_decoded_step hi
  wait := by simp [step, decode, h.instr]
  waiting := by
    have hstart : s.mulStart = false := by
      cases hw : s.pcpiWait <;> simp [mulStart, hw, h.wait]
    simp [step, work, h.waiting, hstart]
  finish := by simp [step, work, h.waiting]
  ready := by simp [step, answer, h.finish]

theorem Quiet.taken (h : Quiet s) (hi : i.mulOp = some op) : Taken op (s.step true i) where
  decoded := decoded_step hi
  wait := by simp [step, decode, h.instr]
  waiting := by
    have hstart : s.mulStart = false := by
      cases hw : s.pcpiWait <;> simp [mulStart, hw, h.wait]
    simp [step, work, h.waiting, hstart]
  finish := by simp [step, work, h.waiting]
  ready := by simp [step, answer, h.finish]

theorem Taken.starts (h : Taken op s) (hi : i.mulOp = some op) : Starts op (s.step true i) where
  decoded := decoded_step hi
  wait := by simp [step, decode, h.decoded.anyMul]
  waitQ := by simp [step, decode, h.wait]
  waiting := by simp [step, work, h.waiting, mulStart, h.wait]
  finish := by simp [step, work, h.waiting]
  ready := by simp [step, answer, h.finish]

theorem Starts.busy (h : Starts op s) (hi : i.mulOp = some op) : Busy op i 0 (s.step true i) where
  decoded := decoded_step hi
  wait := by simp [step, decode, h.decoded.anyMul]
  waitQ := by simp [step, decode, h.wait]
  waiting := by simp [step, work, h.waiting, mulStart, h.wait, h.waitQ]
  finish := by simp [step, work, h.waiting]
  ready := by simp [step, answer, h.finish]
  counter := by cases op <;> simp [step, work, h.waiting, h.decoded.anyMulh, bits, MulOp.upper]
  product := by
    simp [step, work, PcpiMul.product, h.waiting, h.decoded.rs1Signed, h.decoded.rs2Signed, partialProduct, operand1,
      operand2, CarrySave.Mul.start]

theorem Working.next {waiting finish ready : Bool} (h : Working op waiting finish ready s) (hi : i.mulOp = some op) :
    Decoded op (s.step true i) ∧ (s.step true i).pcpiWait = true ∧ (s.step true i).pcpiWaitQ = true :=
  ⟨decoded_step hi, h.decoded.anyMul, h.wait⟩

theorem Busy.lastStep {j : ℕ} (h : Busy op i j s) (hj : j < bits op) : s.lastStep = decide (j + 1 = bits op) := by
  have h32 : ∀ j < 32, (30#7 - BitVec.ofNat 7 j).getLsbD 6 = decide (j + 1 = 32) := by decide
  have h64 : ∀ j < 64, (62#7 - BitVec.ofNat 7 j).getLsbD 6 = decide (j + 1 = 64) := by decide
  rw [PcpiMul.lastStep, h.counter]
  cases op with
  | mul => exact h32 j hj
  | mulh | mulhsu | mulhu => exact h64 j hj

theorem product_work (hw : s.mulWaiting = false) : (s.step true i).product = CarrySave.Mul.step 4 s.product := by
  simp [step, work, hw, PcpiMul.product, nextRd, nextRdx, nextRs1, nextRs2, thisRs2, CarrySave.Mul.step]

theorem partialProduct_succ (op : MulOp) (i : PcpiReq) (j : ℕ) :
    partialProduct op i (j + 1) = CarrySave.Mul.step 4 (partialProduct op i j) :=
  Function.iterate_succ_apply' ..

theorem Busy.busy {j : ℕ} (h : Busy op i j s) (hi : i.mulOp = some op) (hj : j + 1 < bits op) :
    Busy op i (j + 1) (s.step true i) := by
  obtain ⟨hd, hw, hq⟩ := h.toWorking.next hi
  have hlast : s.lastStep = false := by rw [h.lastStep (by omega), decide_eq_false (by omega)]
  refine ⟨⟨hd, hw, hq, ?_, ?_, ?_⟩, ?_, ?_⟩
  · simp [step, work, h.waiting, hlast]
  · simp [step, work, h.waiting, hlast]
  · simp [step, answer, h.finish]
  · simp [step, work, h.waiting, h.counter, BitVec.ofNat_add, BitVec.sub_sub]
  · rw [product_work h.waiting, h.product, partialProduct_succ]

theorem Busy.finished {j : ℕ} (h : Busy op i j s) (hi : i.mulOp = some op) (hj : j + 1 = bits op) :
    Finished op i (s.step true i) := by
  obtain ⟨hd, hw, hq⟩ := h.toWorking.next hi
  have hlast : s.lastStep = true := by rw [h.lastStep (by omega), decide_eq_true hj]
  refine ⟨⟨hd, hw, hq, ?_, ?_, ?_⟩, ?_⟩
  · simp [step, work, h.waiting, hlast]
  · simp [step, work, h.waiting, hlast]
  · simp [step, answer, h.finish]
  · rw [product_work h.waiting, h.product, ← hj, partialProduct_succ]

/-! ## The result -/

theorem operand1_eq (op : MulOp) (i : PcpiReq) :
    operand1 op i = BitVec.ofInt 64 (if op.signed1 then i.rs1.toInt else i.rs1.toNat) := by
  unfold operand1
  split
  · rfl
  · rw [BitVec.ofInt_natCast, BitVec.ofNat_toNat]

theorem operand2_eq (op : MulOp) (i : PcpiReq) :
    operand2 op i = BitVec.ofInt 64 (if op.signed2 then i.rs2.toInt else i.rs2.toNat) := by
  unfold operand2
  split
  · rfl
  · rw [BitVec.ofInt_natCast, BitVec.ofNat_toNat]

/-- The bits that are done are all that the first operand has. -/
theorem operand1_lt (op : MulOp) (i : PcpiReq) : (operand1 op i).toNat < 2 ^ bits op := by
  cases op with
  | mul =>
    have h := i.rs1.isLt
    simp only [operand1, MulOp.signed1, bits, MulOp.upper]
    simp
    omega
  | mulh | mulhsu | mulhu => exact (operand1 _ i).isLt

/-- What the sums hold after the last bit is the word that the instruction asks for. -/
theorem acc_bits (op : MulOp) (i : PcpiReq) :
    (if op.upper then (partialProduct op i (bits op)).acc >>> 32 else (partialProduct op i (bits op)).acc).setWidth 32 =
      op.eval i.rs1 i.rs2 := by
  have hmul {k : ℕ} (hk : k ≤ bits op) (hk' : k ≤ 64) :
      (partialProduct op i (bits op)).acc.setWidth k = (operand1 op i * operand2 op i).setWidth k :=
    CarrySave.Mul.acc_eq_mul (by omega) (m := 16) rfl _ (operand1_lt op i) hk hk'
  have hprod : op.eval i.rs1 i.rs2 =
      if op.upper then (operand1 op i * operand2 op i).extractLsb' 32 32 else (operand1 op i * operand2 op i).extractLsb' 0 32 := by
    rw [operand1_eq, operand2_eq, ← BitVec.ofInt_mul]
    rfl
  rw [hprod]
  split
  · rename_i hup
    have h64 := hmul (k := 64) (by simp [bits, hup]) le_rfl
    rw [BitVec.setWidth_eq, BitVec.setWidth_eq] at h64
    rw [h64]
    apply BitVec.eq_of_toNat_eq
    simp
  · rw [hmul (k := 32) (by unfold bits; split <;> omega) (by omega)]
    apply BitVec.eq_of_toNat_eq
    simp

theorem Finished.answers (h : Finished op i s) (hi : i.mulOp = some op) :
    Answers op (op.eval i.rs1 i.rs2) (s.step true i) := by
  obtain ⟨hd, hw, hq⟩ := h.toWorking.next hi
  have hacc : s.rd = (partialProduct op i (bits op)).acc := congrArg CarrySave.Mul.acc h.product
  refine ⟨⟨hd, hw, hq, ?_, ?_, ?_⟩, ?_, ?_⟩
  · simp [step, work, h.waiting, mulStart, h.wait, h.waitQ]
  · simp [step, work, h.waiting]
  · simp [step, answer, h.finish]
  · simp [step, answer, h.finish]
  · rw [← acc_bits, ← hacc]
    simp [step, answer, h.finish, h.decoded.anyMulh]

/-- The answer is given once, while the request is still there. -/
theorem Answers.waits {x : Word32} (h : Answers op x s) (hi : i.mulOp = some op) : Working op true false false (s.step true i) := by
  obtain ⟨hd, hw, hq⟩ := h.toWorking.next hi
  refine ⟨hd, hw, hq, ?_, ?_, ?_⟩
  · simp [step, work, h.waiting, mulStart, h.wait, h.waitQ]
  · simp [step, work, h.waiting]
  · simp [step, answer, h.finish]

theorem Working.quiet (h : Working op true false false s) (hi : i.mulOp = none) : Quiet (s.step true i) where
  instr := not_decoded_step hi
  wait _ := h.wait
  waiting := by simp [step, work, h.waiting, mulStart, h.wait, h.waitQ]
  finish := by simp [step, work, h.waiting]
  ready := by simp [step, answer, h.finish]

/-! ## Whole runs -/

/-- The stages by their numbers. -/
def Stage (op : MulOp) (i : PcpiReq) (k : ℕ) (s : PcpiMul) : Prop :=
  if k = 1 then Taken op s
  else if k = 2 then Starts op s
  else if k < bits op + 3 then Busy op i (k - 3) s
  else if k = bits op + 3 then Finished op i s
  else Answers op (op.eval i.rs1 i.rs2) s

theorem bits_pos (op : MulOp) : 0 < bits op := by
  unfold bits
  split <;> omega

theorem Stage.next {k : ℕ} (h : Stage op i k s) (hi : i.mulOp = some op) (h0 : 0 < k) (hk : k < latency op) :
    Stage op i (k + 1) (s.step true i) := by
  have hb := bits_pos op
  unfold latency at hk
  unfold Stage at h ⊢
  split at h
  · subst k
    exact h.starts hi
  · split at h
    · subst k
      rw [if_neg (by omega), if_neg (by omega), if_pos (by omega)]
      exact h.busy hi
    · split at h
      · rw [if_neg (by omega), if_neg (by omega)]
        split
        · rw [show k + 1 - 3 = k - 3 + 1 by omega]
          exact h.busy hi (by omega)
        · rw [if_pos (by omega)]
          exact h.finished hi (by omega)
      · split at h
        · rw [if_neg (by omega), if_neg (by omega), if_neg (by omega), if_neg (by omega)]
          exact h.answers hi
        · omega

theorem Stage.ready {k : ℕ} (h : Stage op i k s) (hk : k ≤ latency op) :
    s.pcpiReady = decide (k = latency op) := by
  have hb := bits_pos op
  unfold latency at hk ⊢
  unfold Stage at h
  split at h
  · rw [h.ready, decide_eq_false (by omega)]
  · split at h
    · rw [h.ready, decide_eq_false (by omega)]
    · split at h
      · rw [h.ready, decide_eq_false (by omega)]
      · split at h
        · rw [h.ready, decide_eq_false (by omega)]
        · rw [h.ready, decide_eq_true (by omega)]

/-- From its start on the unit says that it is at work. -/
theorem Stage.waits {k : ℕ} (h : Stage op i k s) (hk : 2 ≤ k) : s.pcpiWait = true := by
  unfold Stage at h
  rw [if_neg (by omega)] at h
  split at h
  · exact h.wait
  · split at h
    · exact h.wait
    · split at h <;> exact h.wait

theorem Stage.last (h : Stage op i (latency op) s) : Answers op (op.eval i.rs1 i.rs2) s := by
  have hb := bits_pos op
  unfold Stage latency at h
  rwa [if_neg (by omega), if_neg (by omega), if_neg (by omega), if_neg (by omega)] at h

/-- The multiplier as a machine that answers one request at a time. -/
def service : Service step MulOp PcpiReq where
  port i := i
  req := PcpiReq.mulOp
  ready s := s.pcpiReady
  latency := latency
  Quiet := Quiet
  Stage := Stage
  Drained s := ∃ op, Working op true false false s
  latency_pos op := Nat.succ_pos _
  quiet_ready h := h.ready
  idle := Quiet.idle
  begin h hi := h.taken hi
  next := Stage.next
  stage_ready h _ hk := h.ready hk
  drain h hi := ⟨_, h.last.waits hi⟩
  drained_ready h := h.elim fun _ h => h.ready
  rest h hi := h.elim fun _ h => h.quiet hi
  busy hi _ h := by
    have hno := h.instr
    rw [(decoded_step hi).anyMul] at hno
    cases hno

/-- Two edges of the reset leave nothing of a request. -/
theorem quiet_reset (s : PcpiMul) (i j : PcpiReq) : Quiet ((s.step false i).step false j) where
  instr := by simp [step, decode, instrAnyMul]
  wait := by simp [step, decode, instrAnyMul]
  waiting := by simp [step, work]
  finish := by simp [step, work]
  ready := by simp [step, answer]

/-- After a reset of two edges or more, and with every multiply instruction held until it is
answered and then withdrawn: each is answered with its product, 36 cycles after it is
presented or 68, once and not before, and there is no other answer. -/
theorem multiplier_answers (r : Run step) (hreset : ∃ s i, r.powerUp = step false s i) (hpolite : service.Polite r) :
    (∀ n op, service.Begins r n op →
      (∀ k < latency op, (r.st (n + k)).pcpiReady = false) ∧ (r.st (n + latency op)).pcpiReady = true ∧
        (r.st (n + latency op)).pcpiWr = true ∧
        (r.st (n + latency op)).pcpiRd = op.eval (r.inp n).rs1 (r.inp n).rs2) ∧
    ∀ n, (r.st n).pcpiReady = true → ∃ m op, service.Begins r m op ∧ n = m + latency op := by
  obtain ⟨s, i, hs⟩ := hreset
  have h0 : service.Quiet (r.st 0) := by
    rw [r.st_zero, hs]
    exact quiet_reset s i r.resetInp
  refine ⟨fun n op hb => ?_, fun n hn => service.requested hpolite h0 hn⟩
  obtain ⟨hno, hready, hstage⟩ := service.answered hpolite h0 hb
  exact ⟨hno, hready, (Stage.last hstage).wr, (Stage.last hstage).rd⟩

/-- `mulh x1, x2, x3` of `-3` and `5`. -/
def mulhReq : PcpiReq := ⟨true, 0x023110B3, -3, 5⟩

/-- It is presented in the first cycle, held until it is answered and withdrawn. -/
def mulhRun : Run step where
  powerUp := step false default mulhReq
  resetInp := mulhReq
  inp n := if n ≤ latency .mulh then mulhReq else ⟨false, 0, 0, 0⟩

theorem mulh_answered : (mulhRun.st 68).pcpiReady = true ∧ (mulhRun.st 68).pcpiRd = 0xFFFFFFFF := by
  have hop : service.req mulhReq = some .mulh := by decide
  have hpolite : service.Polite mulhRun :=
    Service.polite_once (quiet_reset default mulhReq mulhReq) hop rfl fun n => rfl
  obtain ⟨-, hready, -, hrd⟩ := (multiplier_answers mulhRun ⟨default, mulhReq, rfl⟩ hpolite).1 0 .mulh ⟨hop, .inl rfl⟩
  have hval : MulOp.mulh.eval mulhReq.rs1 mulhReq.rs2 = 0xFFFFFFFF := by decide
  exact ⟨hready, hrd.trans hval⟩

end PcpiMul

end RiscvSoc.Cpu
