import RiscvSoc.Aes.InFlight
/-!
# The key stays inside

Two runs whose bus traffic differs in the data of the writes to KEY0-3 alone. What the
key reaches is the contents of the datapath; no state machine, counter or flag looks at
these, so the runs differ in nothing that the bus sees but RESULT and IV.
-/

open Sync

namespace RiscvSoc.Aes

/-! ## What does not depend on the key -/

/-- The control of two cores is in the same state; their data may be anything. -/
structure SameCore (s s' : AesCore) : Prop where
  state : s.state = s'.state
  done : s.done = s'.done
  keState : s.uKeyExpand.state = s'.uKeyExpand.state
  keRound : s.uKeyExpand.roundIdx = s'.uKeyExpand.roundIdx
  keDone : s.uKeyExpand.done = s'.uKeyExpand.done
  encdecReg : s.state ≠ .idle → s.encdecReg = s'.encdecReg
  rnum : s.state = .round → s.rnum = s'.rnum

structure SameControl (s s' : AesChain) : Prop where
  state : s.state = s'.state
  doneReg : s.doneReg = s'.doneReg
  core : SameCore s.uCore s'.uCore

/-- All registers but the key, the IV, the last read data and the contents of the chain. -/
structure SameButKey (s s' : AesRegs) : Prop where
  dataReg : s.dataReg = s'.dataReg
  encdecReg : s.encdecReg = s'.encdecReg
  modeReg : s.modeReg = s'.modeReg
  statusDone : s.statusDone = s'.statusDone
  irqPulse : s.irqPulse = s'.irqPulse
  rsp : { s.port.rsp with rdata := 0 } = { s'.port.rsp with rdata := 0 }
  chain : SameControl s.uChain s'.uChain

/-- The key expansion counts its rounds whatever the key is. -/
theorem keyExpand_same {k k' : KeyExpand} {start start' : Bool} (hstart : start = start') (hs : k.state = k'.state)
    (hr : k.roundIdx = k'.roundIdx) (key key' : Block) :
    (k.step true start key).state = (k'.step true start' key').state ∧
      (k.step true start key).roundIdx = (k'.step true start' key').roundIdx ∧
      (k.step true start key).done = (k'.step true start' key').done := by
  subst hstart
  cases h : k.state with
  | idle =>
    have h' : k'.state = .idle := hs ▸ h
    cases start <;> simp [KeyExpand.step, h, h', hr]
  | expand =>
    have h' : k'.state = .expand := hs ▸ h
    by_cases h10 : k'.roundIdx = 10#4 <;> simp [KeyExpand.step, h, h', hr, h10]

/-- The core looks at its direction while it works, and at its round number in the
rounds. -/
theorem coreFsm_same {s s' : AesCore} {i i' : CoreIn} (hs : i.start = i'.start)
    (he : i.start = true → i.encdec = i'.encdec) (h : SameCore s s') :
    (s.fsm i).state = (s'.fsm i').state ∧ (s.fsm i).done = (s'.fsm i').done ∧
      ((s.fsm i).state ≠ .idle → (s.fsm i).encdecReg = (s'.fsm i').encdecReg) ∧
      ((s.fsm i).state = .round → (s.fsm i).rnum = (s'.fsm i').rnum) := by
  cases h1 : s.state with
  | idle =>
    have h1' : s'.state = .idle := h.state ▸ h1
    cases hi : i.start with
    | false =>
      have hi' : i'.start = false := hs ▸ hi
      simp [AesCore.fsm, h1, h1', hi, hi']
    | true =>
      have hi' : i'.start = true := hs ▸ hi
      simp [AesCore.fsm, h1, h1', hi, hi', he hi]
  | keyexp =>
    have h1' : s'.state = .keyexp := h.state ▸ h1
    have hd := h.encdecReg (by simp [h1])
    cases hk : s'.uKeyExpand.done with
    | false => simp [AesCore.fsm, h1, h1', h.keDone, hk, hd]
    | true => cases hdec : s'.encdecReg <;> simp [AesCore.fsm, h1, h1', h.keDone, hk, hd, hdec]
  | round =>
    have h1' : s'.state = .round := h.state ▸ h1
    have hd := h.encdecReg (by simp [h1])
    have hr := h.rnum h1
    cases hdec : s'.encdecReg with
    | false => by_cases h9 : s'.rnum = 9#4 <;> simp [AesCore.fsm, h1, h1', hd, hdec, hr, h9]
    | true => by_cases h0 : s'.rnum = 1#4 <;> simp [AesCore.fsm, h1, h1', hd, hdec, hr, h0]
  | final =>
    have h1' : s'.state = .final := h.state ▸ h1
    simp [AesCore.fsm, h1, h1']

theorem sameCore_step {s s' : AesCore} {i i' : CoreIn} (hs : i.start = i'.start)
    (he : i.start = true → i.encdec = i'.encdec) (h : SameCore s s') : SameCore (s.step true i) (s'.step true i') := by
  obtain ⟨hstate, hdone, hdec, hrnum⟩ := coreFsm_same hs he h
  have hstart : s.keStart i = s'.keStart i' := by rw [AesCore.keStart, AesCore.keStart, h.state, hs]
  obtain ⟨hk, hround, hkd⟩ := keyExpand_same hstart h.keState h.keRound i.keyIn i'.keyIn
  exact ⟨hstate, hdone, hk, hround, hkd, hdec, hrnum⟩

/-- The chain waits for a START and then for the core. -/
theorem chainFsm_same {s s' : AesChain} {i i' : ChainIn} (hs : i.start = i'.start) (h : SameControl s s') :
    (s.fsm i).state = (s'.fsm i').state ∧ (s.fsm i).doneReg = (s'.fsm i').doneReg := by
  constructor
  · have hidle : (s.fsm i).state = .idle ↔ (s'.fsm i').state = .idle := by
      rw [AesChain.fsm_state, AesChain.fsm_state, h.state, h.core.done, hs]
    cases hf : (s.fsm i).state <;> cases hf' : (s'.fsm i').state <;> simp [hf, hf'] at hidle ⊢
  · have hd := AesChain.doneReg_step s i
    rw [h.state, h.core.done, ← AesChain.doneReg_step s' i'] at hd
    exact Bool.eq_iff_iff.2 hd

theorem sameControl_step {s s' : AesChain} {i i' : ChainIn} (hs : i.start = i'.start)
    (he : i.start = true → i.encdec = i'.encdec ∧ i.mode = i'.mode) (h : SameControl s s') :
    SameControl (s.step true i) (s'.step true i') := by
  obtain ⟨hstate, hdone⟩ := chainFsm_same hs h
  refine ⟨hstate, hdone, sameCore_step ?_ (fun hst => ?_) h.core⟩
  · simp [AesChain.coreIn, AesChain.coreStart, h.state, hs]
  · simp only [AesChain.coreIn, AesChain.coreStart, Bool.and_eq_true] at hst
    obtain ⟨h1, h2⟩ := he hst.2
    simp [AesChain.coreIn, AesChain.coreEncdec, h1, h2]

/-! ## What the bus may bring -/

def keyOffsets : List (BitVec 7) := [AesRegs.regKey0, AesRegs.regKey1, AesRegs.regKey2, AesRegs.regKey3]

/-- The offsets of RESULT0-3 and IV0-3. -/
def cipherOffsets : List (BitVec 7) :=
  [AesRegs.regResult0, AesRegs.regResult1, AesRegs.regResult2, AesRegs.regResult3, AesRegs.regIv0, AesRegs.regIv1,
    AesRegs.regIv2, AesRegs.regIv3]

/-- The requests differ in the data of a write to KEY0-3 at most. -/
structure SameRequest (i i' : LiteReq) : Prop where
  rest : { i with wdata := 0 } = { i' with wdata := 0 }
  wdata : ¬ (i.doWrite = true ∧ AesRegs.awOffset i ∈ keyOffsets) → i.wdata = i'.wdata

section Edge

variable {s s' : AesRegs} {i i' : LiteReq}

theorem SameRequest.eqs (h : SameRequest i i') :
    i.doWrite = i'.doWrite ∧ AesRegs.awOffset i = AesRegs.awOffset i' ∧ i.arvalid = i'.arvalid ∧ i.araddr = i'.araddr := by
  obtain ⟨h1, -⟩ := h
  simp only [LiteReq.mk.injEq] at h1
  obtain ⟨hav, haw, hwv, -, -, -, harv, har, -⟩ := h1
  exact ⟨by rw [LiteReq.doWrite, LiteReq.doWrite, hav, hwv], by rw [AesRegs.awOffset, AesRegs.awOffset, haw], harv, har⟩

theorem SameRequest.writes (h : SameRequest i i') (offset : BitVec 7) : i.writes offset = i'.writes offset := by
  obtain ⟨hw, ho, -⟩ := h.eqs
  rw [AesRegs.awOffset, AesRegs.awOffset] at ho
  rw [LiteReq.writes, LiteReq.writes, hw, ho]

/-- A write to another register brings the same data. -/
theorem SameRequest.data (h : SameRequest i i') {offset : BitVec 7} (hw : i.writes offset = true)
    (hk : offset ∉ keyOffsets) : i.wdata = i'.wdata := by
  refine h.wdata fun ⟨_, hin⟩ => hk ?_
  simp only [LiteReq.writes, Bool.and_eq_true, decide_eq_true_eq] at hw
  rwa [AesRegs.awOffset, hw.2] at hin

theorem SameRequest.doStart (h : SameRequest i i') (hc : SameControl s.uChain s'.uChain) :
    s.doStart i = s'.doStart i' ∧ (s.doStart i = true → i.wdata = i'.wdata) := by
  have hw := h.writes AesRegs.regCtrl
  cases hi : i.writes AesRegs.regCtrl with
  | false => simp [AesRegs.doStart, hi, ← hw]
  | true =>
    have hd := h.data hi (by decide)
    simp [AesRegs.doStart, ← hw, ← hd, AesChain.busy, hc.state]

theorem readReg_same (h : SameButKey s s') {offset : BitVec 7} (ho : offset ∉ cipherOffsets) :
    s.readReg offset = s'.readReg offset := by
  simp only [cipherOffsets, List.mem_cons, List.not_mem_nil, or_false, not_or] at ho
  obtain ⟨r0, r1, r2, r3, v0, v1, v2, v3⟩ := ho
  simp only [AesRegs.readReg, r0, r1, r2, r3, v0, v1, v2, v3, if_false, h.dataReg, h.encdecReg, h.modeReg, h.statusDone,
    AesChain.busy, h.chain.state]

theorem data_not_key : ∀ o ∈ keyOffsets,
    o ≠ AesRegs.regData0 ∧ o ≠ AesRegs.regData1 ∧ o ≠ AesRegs.regData2 ∧ o ≠ AesRegs.regData3 := by decide

/-- The writes that differ go to the key. -/
theorem writeData_same (h : SameRequest i i') (b : Block) :
    AesRegs.writeData b (AesRegs.awOffset i) i.wdata = AesRegs.writeData b (AesRegs.awOffset i') i'.wdata := by
  rw [← h.eqs.2.1]
  by_cases hk : AesRegs.awOffset i ∈ keyOffsets
  · obtain ⟨h0, h1, h2, h3⟩ := data_not_key _ hk
    simp only [AesRegs.writeData, AesRegs.writeBlock, h0, h1, h2, h3, if_false]
  · rw [h.wdata fun hn => hk hn.2]

theorem sameButKey_step (hi : SameRequest i i') (h : SameButKey s s') :
    SameButKey (AesRegs.edge true s i) (AesRegs.edge true s' i') ∧
      (i.arvalid = true → i.araddr.extractLsb' 0 7 ∉ cipherOffsets →
        (AesRegs.edge true s i).port.sRdata = (AesRegs.edge true s' i').port.sRdata) := by
  obtain ⟨hw, -, harv, har⟩ := hi.eqs
  obtain ⟨hstart, hsame⟩ := hi.doStart h.chain
  have hctl : i.writes AesRegs.regCtrl = true → i.wdata = i'.wdata := fun hc => hi.data hc (by decide)
  have hrsp := h.rsp
  simp only [LitePort.rsp, LiteRsp.mk.injEq] at hrsp
  obtain ⟨-, -, -, hbresp, -, -, -, hrresp⟩ := hrsp
  rw [AesRegs.edge_eq, AesRegs.edge_eq]
  refine ⟨⟨?_, ?_, ?_, ?_, h.chain.doneReg, ?_, ?_⟩, fun hr ho => ?_⟩
  · cases hd : i.doWrite with
    | false => simp [← hw, hd, h.dataReg]
    | true => simp [← hw, hd, h.dataReg, writeData_same hi]
  · cases hd : s.doStart i with
    | false => simp [← hstart, hd, h.encdecReg]
    | true => simp [← hstart, hd, hsame hd]
  · cases hd : s.doStart i with
    | false => simp [← hstart, hd, h.modeReg]
    | true => simp [← hstart, hd, hsame hd]
  · have hst := hi.writes AesRegs.regStatus
    cases hd : i.writes AesRegs.regStatus with
    | false => simp [← hst, hd, h.statusDone, h.chain.doneReg]
    | true => simp [← hst, hd, h.statusDone, h.chain.doneReg, hi.data hd (by decide)]
  · simp [LitePort.rsp, LitePort.answer, ← hw, ← harv, hbresp, hrresp]
  · refine sameControl_step hstart (fun hd => ?_) h.chain
    simp [AesRegs.chainIn, hsame hd]
  · rw [har] at ho
    simp [LitePort.answer, hr, ← harv, har, readReg_same h ho]

end Edge

/-! ## Two runs -/

/-- The same traffic but for the data of the writes to KEY0-3, from the same response
registers, which the reset leaves alone. -/
structure SameTraffic (r r' : Run AesRegs.edge) : Prop where
  port : r.powerUp.port = r'.powerUp.port
  inp : ∀ n, SameRequest (r.inp n) (r'.inp n)

theorem SameTraffic.same {r r' : Run AesRegs.edge} (h : SameTraffic r r') (n : ℕ) : SameButKey (r.st n) (r'.st n) := by
  induction n with
  | zero =>
    refine ⟨rfl, rfl, rfl, rfl, rfl, ?_, rfl, rfl, rfl, rfl, rfl, rfl, rfl, ?_, ?_⟩
    · show { r.powerUp.port.rsp with rdata := 0 } = { r'.powerUp.port.rsp with rdata := 0 }
      rw [h.port]
    · exact fun hne => absurd rfl hne
    · intro hr
      cases hr
  | succ n ih => exact (sameButKey_step (h.inp n) ih).1

/-- Whatever else the two runs were powered up with, the handshakes, the responses, the
interrupt and the status are the same in every cycle, and so is what is read at every
offset but those of RESULT and IV. -/
theorem key_secret (r r' : Run AesRegs.edge) (h : SameTraffic r r') (n : ℕ) :
    { (r.st n).port.rsp with rdata := 0 } = { (r'.st n).port.rsp with rdata := 0 } ∧
      (r.st n).irqPulse = (r'.st n).irqPulse ∧ (r.st n).uChain.busy = (r'.st n).uChain.busy ∧
      (r.st n).statusDone = (r'.st n).statusDone ∧
      ((r.inp n).arvalid = true → (r.inp n).araddr.extractLsb' 0 7 ∉ cipherOffsets →
        (r.st (n + 1)).port.sRdata = (r'.st (n + 1)).port.sRdata) := by
  have hs := h.same n
  exact ⟨hs.rsp, hs.irqPulse, by rw [AesChain.busy, AesChain.busy, hs.chain.state], hs.statusDone,
    (sameButKey_step (h.inp n) hs).2⟩

/-- KEY0 is written, a block is started and everything is read in turn. -/
def keyRun (key : Word32) : Run AesRegs.edge where
  powerUp := (startRun busyTraffic).powerUp
  resetInp := startRun.regWrite 0 0
  inp
    | 0 => startRun.regWrite 0x10 key
    | 1 => startRun.regWrite 0x00 0x1
    | n + 2 => startRun.regWrite (BitVec.ofNat 32 (4 * n)) 0

theorem key_secret_keyRun :
    ((keyRun 1).st 25).irqPulse = ((keyRun 2).st 25).irqPulse ∧
      ((keyRun 1).st 7).port.sRdata = ((keyRun 2).st 7).port.sRdata := by
  have h : SameTraffic (keyRun 1) (keyRun 2) := by
    refine ⟨rfl, fun n => ?_⟩
    match n with
    | 0 => exact ⟨rfl, fun hn => absurd ⟨rfl, by decide⟩ hn⟩
    | 1 | n + 2 => exact ⟨rfl, fun _ => rfl⟩
  exact ⟨(key_secret _ _ h 25).2.1, (key_secret _ _ h 6).2.2.2.2 rfl (by decide)⟩

end RiscvSoc.Aes
