import RiscvSoc.Dma.RamBursts
/-!
# Register writes while BUSY

Two runs that differ only in what the CPU does while an operation is BUSY go in step:
each configuration register but the key is copied before such a write can reach it.
-/

namespace RiscvSoc.Dma

open Sync Aes

variable {k : ℕ}

/-! ## When the chain looks at its inputs -/

theorem keyExpand_congr {s : KeyExpand} {start : Bool} {key key' : Block} (h : start = true → key = key') :
    s.step true start key = s.step true start key' := by
  cases start with
  | true => rw [h rfl]
  | false => simp [KeyExpand.step]

/-- The key matters in the cycle of a start, the IV in the cycle of a load. -/
theorem chain_congr {s : AesChain} {i : ChainIn} {iv key : Block} (hiv : i.loadIv = true → i.ivIn = iv)
    (hkey : i.start = true → i.keyIn = key) : s.step true i = s.step true { i with ivIn := iv, keyIn := key } := by
  have hload : (if i.loadIv then i.ivIn else s.ivReg) = if i.loadIv then iv else s.ivReg := by
    cases hl : i.loadIv with
    | true => simp [hiv hl]
    | false => rfl
  have hfsm : s.fsm i = s.fsm { i with ivIn := iv, keyIn := key } := by
    simp only [AesChain.fsm, hload]
  have hke : s.uCore.uKeyExpand.step true (s.uCore.keStart (s.coreIn i)) i.keyIn =
      s.uCore.uKeyExpand.step true (s.uCore.keStart (s.coreIn i)) key := by
    refine keyExpand_congr fun h => hkey ?_
    simp only [AesCore.keStart, AesChain.coreIn, AesChain.coreStart, Bool.and_eq_true] at h
    exact h.2.2
  have hcore : s.uCore.step true (s.coreIn i) = s.uCore.step true (s.coreIn { i with ivIn := iv, keyIn := key }) :=
    congrArg (fun ke => { s.uCore.fsm (s.coreIn i) with uKeyExpand := ke }) hke
  exact congrArg₂ (fun t core => { t with uCore := core }) hfsm hcore

/-! ## In step -/

/-- The two systems differ only in the registers that an operation has no more use for. -/
structure InStep (s s' : DmaSys k) : Prop where
  fsm : s.engine.fsm = s'.engine.fsm
  chain : s.engine.uChain = s'.engine.uChain
  ram : s.ram = s'.ram
  mode : s.engine.regs.ctrlMode = s'.engine.regs.ctrlMode
  encdec : s.engine.regs.ctrlEncdec = s'.engine.regs.ctrlEncdec
  iv : s.engine.fsm.chainLoadIv = true → s.engine.regs.ivReg = s'.engine.regs.ivReg

theorem fsm_congr {e e' : DmaEngine} {i i' : EngineIn} (hs : e.fsm.state ≠ .idle) (hf : e.fsm = e'.fsm)
    (hch : e.uChain = e'.uChain) (hr : i.ram = i'.ram) : e.fsmStep true i = e'.fsmStep true i' := by
  simp only [DmaEngine.fsmStep, DmaEngine.fsmCase, ← hf, ← hch, ← hr]
  cases h : e.fsm.state with
  | idle => exact absurd h hs
  | rdAddr | rdData | aesGo | aesWait | wrAddr | wrData | wrResp | done => rfl

/-- The IV is loaded in the first BUSY cycle only. -/
theorem loadIv_busy {e : DmaEngine} {i : EngineIn} (hs : e.fsm.state ≠ .idle) :
    (e.fsmStep true i).chainLoadIv = false := by
  simp only [DmaEngine.fsmStep, DmaEngine.fsmCase]
  cases h : e.fsm.state <;> simp <;> grind

/-- An edge while BUSY, whatever the CPU does on the two sides, unless the chain is
started with different keys. -/
theorem InStep.step {s s' : DmaSys k} (hc : Ctl s) (hbusy : s.engine.fsm.statusBusy = true) (x x' : DmaIn)
    (hkey : s.engine.fsm.chainStart = true → s.engine.regs.keyReg = s'.engine.regs.keyReg) (h : InStep s s') :
    InStep (s.step true x) (s'.step true x') := by
  have hs := hc.strobes.busy.1 hbusy
  have hrsp : s.ram.rsp = s'.ram.rsp := congrArg DmaRam.rsp h.ram
  have hf : (s.step true x).engine.fsm = (s'.step true x').engine.fsm := fsm_congr hs h.fsm h.chain hrsp
  have hload : (s.step true x).engine.fsm.chainLoadIv = false := loadIv_busy hs
  have hin : s'.engine.chainIn =
      { s.engine.chainIn with ivIn := s'.engine.regs.ivReg, keyIn := s'.engine.regs.keyReg } := by
    simp [DmaEngine.chainIn, h.fsm, h.mode, h.encdec]
  obtain ⟨m1, m2⟩ := mode_busy (e := s.engine) ⟨x.cpu, s.ram.rsp, x.doneWins⟩ hbusy
  obtain ⟨m1', m2'⟩ := mode_busy (e := s'.engine) ⟨x'.cpu, s'.ram.rsp, x'.doneWins⟩ (h.fsm ▸ hbusy)
  exact {
    fsm := hf
    chain := by
      show s.engine.uChain.step true s.engine.chainIn = s'.engine.uChain.step true s'.engine.chainIn
      rw [← h.chain, hin]
      exact chain_congr h.iv hkey
    ram := by
      show s.ram.step true _ = s'.ram.step true _
      rw [h.ram, h.fsm]
    mode := m1.trans (h.mode.trans m1'.symm)
    encdec := m2.trans (h.encdec.trans m2'.symm)
    -- the registers of the IV may differ from now on
    iv := fun hl => by simp [hload] at hl }

/-! ## Two runs -/

def DmaSys.busEvents (s : DmaSys k) (_ : DmaIn) : List BurstEvent := burstEvents (DmaEngine.burst s.engine.fsm) s.ram.rsp

section Runs

variable (r r' : Run (DmaSys.step (k := k))) (t : ℕ)

/-- The runs are the same up to the edge that accepts a START in cycle `t`. -/
structure SameStart : Prop where
  powerUp : r.powerUp = r'.powerUp
  resetInp : r.resetInp = r'.resetInp
  inp : ∀ n ≤ t, r.inp n = r'.inp n
  start : (r.st t).engine.doStart (r.inp t).cpu = true

/-- No block of the operation goes into the chain with different keys. -/
def SameKeys : Prop :=
  ∀ n, t < n → BusyTo r t n → (r.st n).engine.fsm.chainStart = true →
    (r.st n).engine.regs.keyReg = (r'.st n).engine.regs.keyReg

variable {r r' t}

theorem SameStart.st_eq (h : SameStart r r' t) {n : ℕ} (hn : n ≤ t + 1) : r.st n = r'.st n :=
  Run.st_congr h.powerUp h.resetInp fun m hm => h.inp m (by omega)

theorem SameStart.inStep (h : SameStart r r' t) (hkey : SameKeys r r' t) {n : ℕ} (hb : BusyTo r t n) :
    InStep (r.st (n + 1)) (r'.st (n + 1)) := by
  induction n with
  | zero =>
    rw [h.st_eq (by omega)]
    exact ⟨rfl, rfl, rfl, rfl, rfl, fun _ => rfl⟩
  | succ n ih =>
    rcases Nat.lt_or_ge t (n + 1) with hlt | hge
    · exact (ih fun m h1 h2 => hb m h1 (by omega)).step (ctl r _) (hb _ hlt le_rfl) _ _ (hkey _ hlt hb)
    · rw [h.st_eq (by omega)]
      exact ⟨rfl, rfl, rfl, rfl, rfl, fun _ => rfl⟩

theorem SameStart.log_eq (h : SameStart r r' t) (hkey : SameKeys r r' t) {n : ℕ} (hb : BusyTo r t n) :
    r.log DmaSys.busEvents (n + 1) = r'.log DmaSys.busEvents (n + 1) := by
  refine Run.log_congr _ fun m hm => ?_
  cases m with
  | zero => rw [DmaSys.busEvents, h.st_eq (by omega), DmaSys.busEvents]
  | succ m =>
    have hin := h.inStep hkey (n := m) fun l h1 h2 => hb l h1 (by omega)
    rw [DmaSys.busEvents, hin.fsm, hin.ram, DmaSys.busEvents]

/-! ## The registers at START -/

/-- Each block goes into the chain with the key of START. -/
def StartKey (r : Run (DmaSys.step (k := k))) (t : ℕ) : Prop :=
  ∀ n, t < n → BusyTo r t n → (r.st n).engine.fsm.chainStart = true →
    (r.st n).engine.regs.keyReg = (r.st t).engine.regs.keyReg

/-- The run in which the CPU does nothing after cycle `t`. -/
def quietRun (r : Run (DmaSys.step (k := k))) (t : ℕ) : Run (DmaSys.step (k := k)) :=
  { r with inp := fun n => if n ≤ t then r.inp n else ⟨idleReq, false⟩ }

theorem quietRun_noWrite : NoWrite (quietRun r t) t := by
  intro n hn _
  simp [quietRun, DmaEngine.doWrite, idleReq, show ¬ n ≤ t by omega]

theorem quietRun_sameStart (hstart : (r.st t).engine.doStart (r.inp t).cpu = true) : SameStart r (quietRun r t) t :=
  ⟨rfl, rfl, fun n hn => by simp [quietRun, hn], hstart⟩

theorem quietRun_key (hstart : (r.st t).engine.doStart (r.inp t).cpu = true) {n : ℕ} :
    ((quietRun r t).st (t + 1 + n)).engine.regs.keyReg = (r.st t).engine.regs.keyReg := by
  induction n with
  | zero =>
    rw [Nat.add_zero, ← (quietRun_sameStart hstart).st_eq le_rfl, Run.st_succ]
    exact (start_regs (i := ⟨(r.inp t).cpu, (r.st t).ram.rsp, (r.inp t).doneWins⟩) hstart).1
  | succ n ih =>
    have hw : DmaEngine.doWrite ((quietRun r t).inp (t + 1 + n)).cpu = false := by
      simp [quietRun, DmaEngine.doWrite, idleReq, show ¬ t + 1 + n ≤ t by omega]
    rw [← Nat.add_assoc, Run.st_succ, ← ih]
    exact (regs_quiet _ ⟨_, _, _⟩ hw).1

theorem quietRun_sameKeys (hstart : (r.st t).engine.doStart (r.inp t).cpu = true) (hkey : StartKey r t) :
    SameKeys r (quietRun r t) t := by
  intro n hn hb hs
  obtain ⟨m, rfl⟩ := Nat.exists_eq_add_of_le (show t + 1 ≤ n from hn)
  rw [hkey _ hn hb hs, quietRun_key hstart]

theorem busyTo_quietRun (hstart : (r.st t).engine.doStart (r.inp t).cpu = true) (hkey : StartKey r t) {n : ℕ}
    (hb : BusyTo (quietRun r t) t n) : BusyTo r t n := by
  intro m h1 h2
  induction m using Nat.strong_induction_on with
  | _ m ih =>
    obtain ⟨m, rfl⟩ := Nat.exists_eq_succ_of_ne_zero (show m ≠ 0 by omega)
    have hin := (quietRun_sameStart hstart).inStep (quietRun_sameKeys hstart hkey) (n := m)
      fun l h3 h4 => ih l (by omega) h3 (by omega)
    rw [hin.fsm]
    exact hb _ h1 h2

end Runs

/-- Runs that are the same up to an accepted START, whatever the CPU does after it, have
the same bursts while BUSY and end with the same memory, if no block goes into the chain
with different keys. If each goes in with the key of START, this is the memory that the
registers at START ask for. -/
theorem dma_isolated (r r' : Run (DmaSys.step (k := k))) (t : ℕ) (h : SameStart r r' t) (hkey : SameKeys r r' t) :
    (∀ n, BusyTo r t n → r.log DmaSys.busEvents (n + 1) = r'.log DmaSys.busEvents (n + 1) ∧
        (r.st (n + 1)).ram.mem = (r'.st (n + 1)).ram.mem ∧
        (r.st (n + 1)).engine.fsm.statusBusy = (r'.st (n + 1)).engine.fsm.statusBusy) ∧
      (StartKey r t → k ≤ 30 → 1 ≤ (r.st t).engine.regs.lenReg.toNat →
        let len := (r.st t).engine.regs.lenReg.toNat
        ∃ n, BusyTo r t n ∧ (r.st (n + 1)).engine.fsm.statusBusy = false ∧
          (r.st (n + 1)).ram.mem = (((r.st t).engine.job (r.inp t).cpu).after (r.st t).ram.mem len).1) := by
  refine ⟨fun n hb => ?_, fun hstart hk hlen => ?_⟩
  · have hin := h.inStep hkey hb
    exact ⟨h.log_eq hkey hb, by rw [hin.ram], by rw [hin.fsm]⟩
  · have hq := quietRun_sameStart h.start
    have hst := hq.st_eq (n := t) (by omega)
    have hinp := hq.inp t le_rfl
    have hstart' : ((quietRun r t).st t).engine.doStart ((quietRun r t).inp t).cpu = true := by
      rw [← hst, ← hinp]
      exact h.start
    obtain ⟨hb, hdone, hmem⟩ := op_done hk hstart' (by rwa [← hst]) quietRun_noWrite
    have hrb := busyTo_quietRun h.start hstart hb
    have hin := hq.inStep (quietRun_sameKeys h.start hstart) hrb
    obtain ⟨hfall, -, -, hkeep, -⟩ :=
      done_step (x := (quietRun r t).inp _) (ctl _ _) (quietRun_noWrite _ (by omega) hb) hdone
    refine ⟨_, hrb, ?_, ?_⟩
    · rw [hin.fsm]
      exact hfall
    · rw [hin.ram, hst, hinp, ← hmem, ← hkeep]
      rfl

/-- The FIPS-197 example, with other requests of the CPU after START. -/
def cpuRun (cpu : ℕ → LiteReq) : Run (DmaSys.step (k := 11)) :=
  { dmaRun with inp := fun n => if n ≤ 6 then dmaRun.inp n else ⟨cpu n, false⟩ }

/-- Writes to the registers while BUSY, to KEY0 after the block has gone into the chain. -/
def busyWrites : ℕ → LiteReq
  | 7 => writeReq 0x08 0x40
  | 8 => writeReq 0x0C 0x80
  | 9 => writeReq 0x10 5
  | 10 => writeReq 0x24 1
  | 11 => writeReq 0x00 0xF
  | 12 => writeReq 0x04 2
  | 20 => writeReq 0x14 0
  | _ => idleReq

/-- A write to KEY0 before the block goes into the chain. -/
def earlyKey : ℕ → LiteReq
  | 8 => writeReq 0x14 0
  | _ => idleReq

theorem cpuRun_sameStart (cpu : ℕ → LiteReq) : SameStart dmaRun (cpuRun cpu) 6 :=
  ⟨rfl, rfl, fun n hn => by simp [cpuRun, hn], by decide +kernel⟩

set_option maxRecDepth 100000 in
theorem dma_isolated_busyWrites :
    dmaRun.log DmaSys.busEvents 46 = (cpuRun busyWrites).log DmaSys.busEvents 46 ∧
      (dmaRun.st 46).ram.mem = ((cpuRun busyWrites).st 46).ram.mem := by
  have hbusy : ∀ m < 46, 6 < m → (dmaRun.st m).engine.fsm.statusBusy = true := by decide +kernel
  have hfall : (dmaRun.st 46).engine.fsm.statusBusy = false := by decide +kernel
  have hkeys : ∀ m < 46, (dmaRun.st m).engine.fsm.chainStart = true →
      (dmaRun.st m).engine.regs.keyReg = ((cpuRun busyWrites).st m).engine.regs.keyReg := by decide +kernel
  have hkey : SameKeys dmaRun (cpuRun busyWrites) 6 := by
    intro n _ hb hs
    refine hkeys n ?_ hs
    by_contra hge
    simp [hb 46 (by omega) (by omega)] at hfall
  obtain ⟨hlog, hmem, -⟩ := (dma_isolated dmaRun (cpuRun busyWrites) 6 (cpuRun_sameStart _) hkey).1 45
    fun m h1 h2 => hbusy m (by omega) h1
  exact ⟨hlog, hmem⟩

set_option maxRecDepth 100000 in
/-- The key of the operation is not that of START. -/
theorem earlyKey_differs :
    SameStart dmaRun (cpuRun earlyKey) 6 ∧ (dmaRun.st 8).engine.fsm.statusBusy = true ∧
      dmaRun.log DmaSys.busEvents 46 ≠ (cpuRun earlyKey).log DmaSys.busEvents 46 ∧
      readBlock (dmaRun.st 46).ram.mem (blockWord 11 0x100 0) = 0x69c4e0d86a7b0430d8cdb78070b4c55a ∧
      readBlock ((cpuRun earlyKey).st 46).ram.mem (blockWord 11 0x100 0) ≠ 0x69c4e0d86a7b0430d8cdb78070b4c55a :=
  ⟨cpuRun_sameStart _, by decide +kernel, by decide +kernel, by decide +kernel, by decide +kernel⟩

end RiscvSoc.Dma
