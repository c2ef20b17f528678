import RiscvSoc.Cpu.StrayFetch
/-!
# The memory interface reads and writes data

An access is one transaction at the word of `reg_op1`, with the lanes of the store or none.
The buffer of the instruction to come stays as it is.
-/

namespace RiscvSoc.Cpu

open Rv32

namespace Core

variable {code : Word32 → Word32} {T : Word32} {s : Core} {i : CoreIn}

/-- The bytes of `data` that `strb` lets through. -/
def lanesOf (strb : BitVec 4) (data : Word32) (k : Fin 4) : Option (BitVec 8) :=
  if strb.getLsbD k then some (data.extractLsb' (8 * k) 8) else none

/-- The access to data that is completed in this cycle. -/
def access (s : Core) (i : CoreIn) : Option Access :=
  if s.memValid && i.memReady && !s.memInstr then
    some (if s.memWstrb = 0 then .read s.memAddr i.memRdata else .write s.memAddr (lanesOf s.memWstrb s.memWdata))
  else none

theorem access_of_instr (h : s.memInstr = true) : s.access i = none := by
  rw [access, h, Bool.not_true, Bool.and_false, if_neg Bool.false_ne_true]

theorem access_of_not_valid (h : s.memValid = false) : s.access i = none := by
  rw [access, h, Bool.false_and, Bool.false_and, if_neg Bool.false_ne_true]

theorem access_of_not_ready (h : i.memReady = false) : s.access i = none := by
  rw [access, h, Bool.and_false, Bool.false_and, if_neg Bool.false_ne_true]

theorem Idle.no_access (h : Idle s) : s.access i = none := access_of_not_valid h.valid

/-- A transaction of a fetch is for an instruction. -/
theorem Fetching.instr {r : Bool} (h : Fetching code T r s) (hs : s.memValid = true ∨ s.memState = 1) : s.memInstr = true := by
  cases h with
  | idle h => simp [h.valid, h.state] at hs
  | first h => exact h.instr
  | high h => exact h.instr
  | second h => exact h.instr
  | prefetched h => simp [h.valid, h.state] at hs

theorem Fetching.no_access {r : Bool} (h : Fetching code T r s) : s.access i = none := by
  cases hv : s.memValid with
  | false => exact access_of_not_valid hv
  | true => exact access_of_instr (h.instr (.inl hv))

/-- The buffer stays as it is. -/
structure Keeps (s s' : Core) : Prop where
  prefetched : s'.prefetchedHighWord = s.prefetchedHighWord
  buffer : s'.mem16bitBuffer = s.mem16bitBuffer

theorem Keeps.of_eq {s' : Core} {m : MemFsm} (hm : s'.toMemFsm = m) (hp : m.prefetchedHighWord = s.prefetchedHighWord)
    (hb : m.mem16bitBuffer = s.mem16bitBuffer) : Keeps s s' :=
  ⟨(congrArg MemFsm.prefetchedHighWord hm).trans hp, (congrArg MemFsm.mem16bitBuffer hm).trans hb⟩

theorem Buffered.keep {s' : Core} (h : Buffered code T s) (hk : Keeps s s') : Buffered code T s' := fun hT =>
  ⟨hk.prefetched.trans (h hT).1, hk.buffer.trans (h hT).2⟩

/-- The main state machine wants no instruction. -/
structure NoFetch (s : Core) : Prop where
  prefetch : s.memDoPrefetch = false
  rinst : s.memDoRinst = false

theorem NoFetch.firstword (h : NoFetch s) : s.memLaFirstword = false := by
  rw [memLaFirstword, h.prefetch, h.rinst, Bool.or_self, Bool.false_and, Bool.false_and]

theorem NoFetch.usePrefetched (h : NoFetch s) : s.memLaUsePrefetchedHighWord true = false := by
  rw [memLaUsePrefetchedHighWord, h.firstword, Bool.false_and, Bool.false_and]

theorem NoFetch.xfer (h : NoFetch s) : s.memXfer true i = (s.memValid && i.memReady) := by
  rw [memXfer, h.usePrefetched, Bool.false_and, Bool.or_false]

/-- A transfer of data is done with its answer. -/
theorem NoFetch.done (h : NoFetch s) (hs : s.memState = 1 ∨ s.memState = 2) (hv : s.memValid = true)
    (hreq : (s.memDoRinst || s.memDoRdata || s.memDoWdata) = true) : s.memDone true i = i.memReady := by
  rw [memDone_of_busy hs, h.xfer, hv, hreq, h.firstword, Bool.true_and, Bool.and_true, Bool.not_false, Bool.true_or, Bool.and_true]

/-- And the buffer is not given up. -/
structure Calm (s : Core) : Prop extends NoFetch s where
  trap : s.trap = false
  jumps : s.jumps = false
  clear : s.clearPrefetchedHighWordQ = true → s.prefetchedHighWord = false

section Calm

variable (hcalm : Calm s)

include hcalm

theorem Calm.addr : s.memLaAddr true i = wordAddr s.regOp1 := by
  rw [memLaAddr, hcalm.prefetch, hcalm.rinst, Bool.or_self, if_neg Bool.false_ne_true]
  rfl

theorem Calm.kept (b : Bool) : s.kept b = b := kept_of_not_jumps hcalm.jumps hcalm.clear b

/-- Nothing to do. -/
theorem Idle.rest (h : Idle s) (hd : s.memDoRdata = false) (hw : s.memDoWdata = false) :
    Idle (s.step true i) ∧ Keeps s (s.step true i) := by
  have hm := memFsm_idle (i := i) hcalm.trap h.state h.valid hcalm.prefetch hcalm.rinst hd hw
  rw [hcalm.kept] at hm
  refine ⟨⟨congrArg MemFsm.memState hm ▸ h.state, congrArg MemFsm.memValid hm ▸ h.valid, congrArg MemFsm.memLaSecondword hm ▸ h.second, ?_⟩,
    .of_eq hm rfl rfl⟩
  rw [lastMemValid_step, h.valid, Bool.false_and]

/-! ## Loads -/

/-- A load is under way. -/
structure Loading (s : Core) : Prop where
  state : s.memState = 1
  valid : s.memValid = true
  instr : s.memInstr = false
  wstrb : s.memWstrb = 0
  addr : s.memAddr = wordAddr s.regOp1
  second : s.memLaSecondword = false
  reg : s.lastMemValid = true → s.memLaFirstwordReg = false

theorem Idle.loads (h : Idle s) (hd : s.memDoRdata = true) (hw : s.memDoWdata = false) (hop : (s.step true i).regOp1 = s.regOp1) :
    s.memDone true i = false ∧ Loading (s.step true i) ∧ Keeps s (s.step true i) := by
  have hreq : (s.memDoPrefetch || s.memDoRinst || s.memDoRdata) = true := by rw [hd, Bool.or_true]
  have hm := memFsm_read (i := i) hcalm.trap h.state hreq hw hcalm.usePrefetched
  rw [hcalm.addr, hcalm.kept, hcalm.prefetch, hcalm.rinst] at hm
  refine ⟨h.done, ⟨congrArg MemFsm.memState hm, congrArg MemFsm.memValid hm, congrArg MemFsm.memInstr hm, congrArg MemFsm.memWstrb hm,
    (congrArg MemFsm.memAddr hm).trans (congrArg wordAddr hop.symm), congrArg MemFsm.memLaSecondword hm ▸ h.second, fun hl => ?_⟩,
    .of_eq hm rfl rfl⟩
  rw [lastMemValid_step, h.valid, Bool.false_and] at hl
  cases hl

theorem Loading.firstwordXfer (h : Loading s) : s.memLaFirstwordXfer true i = false := by
  rw [memLaFirstwordXfer, hcalm.firstword]
  cases hl : s.lastMemValid with
  | false => exact Bool.and_false _
  | true => rw [h.reg hl]; exact Bool.and_false _

theorem Loading.read (h : Loading s) : s.memLaRead true i = false := by
  rw [memLaRead, h.firstwordXfer hcalm, h.state]
  simp

theorem Loading.wait (h : Loading s) (hr : i.memReady = false) (hop : (s.step true i).regOp1 = s.regOp1) :
    s.memDone true i = false ∧ Loading (s.step true i) ∧ Keeps s (s.step true i) := by
  have hx : s.memXfer true i = false := by rw [hcalm.xfer, hr, Bool.and_false]
  have hm := memFsm_wait hcalm.trap h.state hx
  rw [hcalm.kept] at hm
  refine ⟨by rw [memDone_of_busy (.inl h.state), hx, Bool.false_and, Bool.false_and], ⟨congrArg MemFsm.memState hm ▸ h.state,
    congrArg MemFsm.memValid hm ▸ h.valid, congrArg MemFsm.memInstr hm ▸ h.instr, congrArg MemFsm.memWstrb hm ▸ h.wstrb, ?_,
    congrArg MemFsm.memLaSecondword hm ▸ h.second, fun _ => ?_⟩, .of_eq hm rfl rfl⟩
  · rw [hop]
    exact (congrArg MemFsm.memAddr hm).trans h.addr
  · rw [memLaFirstwordReg_step, hcalm.firstword]
    cases hl : s.lastMemValid with
    | false => rfl
    | true => exact h.reg hl

theorem Loading.loaded (h : Loading s) (hr : i.memReady = true) (hd : s.memDoRdata = true) :
    s.memDone true i = true ∧ s.access i = some (.read (wordAddr s.regOp1) i.memRdata) ∧ Idle (s.step true i) ∧ Keeps s (s.step true i) := by
  have hx : s.memXfer true i = true := by rw [hcalm.xfer, hr, h.valid]; rfl
  have hm := memFsm_last hcalm.trap h.state hx (h.read hcalm)
  rw [hcalm.kept, hd] at hm
  refine ⟨?_, ?_, ⟨?_, congrArg MemFsm.memValid hm, congrArg MemFsm.memLaSecondword hm, ?_⟩,
    .of_eq hm rfl rfl⟩
  · rw [memDone_of_busy (.inl h.state), hx, hd, hcalm.firstword]
    simp
  · rw [access, h.valid, hr, h.instr, h.wstrb, h.addr]
    rfl
  · refine (congrArg MemFsm.memState hm).trans ?_
    rw [Bool.or_true]
    rfl
  · rw [lastMemValid_step, hr]
    exact Bool.and_false _

/-! ## Stores -/

/-- A store is under way. -/
structure Storing (strb : BitVec 4) (data : Word32) (s : Core) : Prop where
  state : s.memState = 2
  valid : s.memValid = true
  instr : s.memInstr = false
  wstrb : s.memWstrb = strb
  wdata : s.memWdata = data
  addr : s.memAddr = wordAddr s.regOp1
  second : s.memLaSecondword = false
  reg : s.lastMemValid = true → s.memLaFirstwordReg = false

variable {strb : BitVec 4} {data : Word32}

theorem Idle.stores (h : Idle s) (hd : s.memDoRdata = false) (hw : s.memDoWdata = true) (hstrb : s.memLaWstrb i = strb)
    (hdata : s.memLaWdata i = data) (hop : (s.step true i).regOp1 = s.regOp1) :
    s.memDone true i = false ∧ Storing strb data (s.step true i) ∧ Keeps s (s.step true i) := by
  have hreq : (s.memDoPrefetch || s.memDoRinst || s.memDoRdata) = false := by rw [hd, hcalm.prefetch, hcalm.rinst]; rfl
  have hm := memFsm_write (i := i) hcalm.trap h.state hw hreq
  rw [hcalm.addr, hcalm.kept, hstrb, hdata] at hm
  refine ⟨h.done, ⟨congrArg MemFsm.memState hm, congrArg MemFsm.memValid hm, congrArg MemFsm.memInstr hm, congrArg MemFsm.memWstrb hm,
    congrArg MemFsm.memWdata hm, (congrArg MemFsm.memAddr hm).trans (congrArg wordAddr hop.symm),
    congrArg MemFsm.memLaSecondword hm ▸ h.second, fun hl => ?_⟩, .of_eq hm rfl rfl⟩
  rw [lastMemValid_step, h.valid, Bool.false_and] at hl
  cases hl

theorem Storing.read (h : Storing strb data s) : s.memLaRead true i = false := by
  have hx : s.memLaFirstwordXfer true i = false := by
    rw [memLaFirstwordXfer, hcalm.firstword]
    cases hl : s.lastMemValid with
    | false => exact Bool.and_false _
    | true => rw [h.reg hl]; exact Bool.and_false _
  rw [memLaRead, hx, h.state]
  simp

theorem Storing.wait (h : Storing strb data s) (hr : i.memReady = false) (hop : (s.step true i).regOp1 = s.regOp1) :
    s.memDone true i = false ∧ Storing strb data (s.step true i) ∧ Keeps s (s.step true i) := by
  have hx : s.memXfer true i = i.memReady := by rw [hcalm.xfer, h.valid, Bool.true_and]
  have hm := memFsm_writing hcalm.trap h.state hx (h.read hcalm)
  rw [hcalm.kept, hr] at hm
  refine ⟨by rw [memDone_of_busy (.inr h.state), hx, hr, Bool.false_and, Bool.false_and], ⟨congrArg MemFsm.memState hm,
    congrArg MemFsm.memValid hm ▸ h.valid, congrArg MemFsm.memInstr hm ▸ h.instr, congrArg MemFsm.memWstrb hm ▸ h.wstrb,
    congrArg MemFsm.memWdata hm ▸ h.wdata, ?_, congrArg MemFsm.memLaSecondword hm ▸ h.second, fun _ => ?_⟩,
    .of_eq hm rfl rfl⟩
  · rw [hop]
    exact (congrArg MemFsm.memAddr hm).trans h.addr
  · rw [memLaFirstwordReg_step, hcalm.firstword]
    cases hl : s.lastMemValid with
    | false => rfl
    | true => exact h.reg hl

theorem Storing.stored (h : Storing strb data s) (hr : i.memReady = true) (hw : s.memDoWdata = true) (hne : strb ≠ 0) :
    s.memDone true i = true ∧ s.access i = some (.write (wordAddr s.regOp1) (lanesOf strb data)) ∧ Idle (s.step true i) ∧
      Keeps s (s.step true i) := by
  have hx : s.memXfer true i = i.memReady := by rw [hcalm.xfer, h.valid, Bool.true_and]
  have hm := memFsm_writing hcalm.trap h.state hx (h.read hcalm)
  rw [hcalm.kept, hr] at hm
  refine ⟨?_, ?_, ⟨congrArg MemFsm.memState hm, congrArg MemFsm.memValid hm, congrArg MemFsm.memLaSecondword hm ▸ h.second, ?_⟩,
    .of_eq hm rfl rfl⟩
  · rw [memDone_of_busy (.inr h.state), hx, hr, hw, hcalm.firstword]
    simp
  · rw [access, h.valid, hr, h.instr, h.wstrb, h.wdata, h.addr, if_neg hne]
    rfl
  · rw [lastMemValid_step, hr]
    exact Bool.and_false _

end Calm

end Core

end RiscvSoc.Cpu
