import RiscvSoc.Cpu.Core
/-!
# The edges of the memory interface

What the state machine of the interface does at an edge, a case at a time: it rests, starts,
waits, goes on with the second word of an instruction, or is done.
-/

namespace RiscvSoc.Cpu.Core

variable {s : Core} {i : CoreIn}

/-- The buffer after the edge, unless the interface writes it. -/
def kept (s : Core) (prefetched : Bool) : Bool := if s.clearPrefetchedHighWord true then false else prefetched

theorem memLaRead_of_not_xfer (hs : s.memState ≠ 0) (hx : s.memXfer true i = false) : s.memLaRead true i = false := by
  simp only [memLaRead, memLaFirstwordXfer, hx, hs, decide_false, Bool.and_false, Bool.false_and, Bool.or_self]

theorem memLaWrite_of_ne (hs : s.memState ≠ 0) : s.memLaWrite true = false := by
  simp only [memLaWrite, hs, decide_false, Bool.and_false, Bool.false_and]

/-- A buffer that is given up is empty from the next cycle on. -/
theorem prefetched_of_clear {resetn : Bool} (h : s.clearPrefetchedHighWord resetn = true) : (s.memFsm resetn i).prefetchedHighWord = false := by
  unfold memFsm
  cases hr : (!resetn || s.trap) with
  | true => simp only [↓reduceIte]
  | false =>
    simp only [h, Bool.false_eq_true, ↓reduceIte]
    by_cases h0 : s.memState = 0
    · simp only [h0, ↓reduceIte]
    by_cases h1 : s.memState = 1
    · simp only [h1, ↓reduceIte]
      cases s.memXfer resetn i <;> cases s.memLaRead resetn i <;> rfl
    by_cases h2 : s.memState = 2
    · simp only [h2, BitVec.ofNat_eq_ofNat, BitVec.reduceEq, ↓reduceIte]
    · simp only [h0, h1, h2, ↓reduceIte]

theorem clearPrefetchedHighWordQ_step (resetn : Bool) (h : (s.step resetn i).clearPrefetchedHighWordQ = true) :
    (s.step resetn i).prefetchedHighWord = false := prefetched_of_clear h

/-- A core that has stopped begins no transaction. -/
theorem memFsm_trap (htrap : s.trap = true) :
    s.memFsm true i = { s.toMemFsm with
      memValid := if i.memReady then false else s.memValid
      memLaSecondword := false
      prefetchedHighWord := false } := by
  simp only [memFsm, htrap, Bool.not_true, Bool.false_or, Bool.false_eq_true, ↓reduceIte]

variable (htrap : s.trap = false)

include htrap in
/-- Nothing is asked for. -/
theorem memFsm_idle (hs : s.memState = 0) (hv : s.memValid = false) (hp : s.memDoPrefetch = false) (hr : s.memDoRinst = false)
    (hd : s.memDoRdata = false) (hw : s.memDoWdata = false) :
    s.memFsm true i = { s.toMemFsm with prefetchedHighWord := s.kept s.prefetchedHighWord } := by
  have hread : s.memLaRead true i = false := by
    simp only [memLaRead, memLaFirstwordXfer, memXfer, hv, hp, hr, hd, Bool.and_false, Bool.false_and, Bool.or_self]
  simp only [memFsm, htrap, hs, hp, hr, hd, hw, hread, memLaWrite, kept, Bool.not_true, Bool.or_self, Bool.false_eq_true,
    Bool.and_false, ↓reduceIte]

include htrap in
/-- A read starts, if its data is not in the buffer. -/
theorem memFsm_read (hs : s.memState = 0) (hr : (s.memDoPrefetch || s.memDoRinst || s.memDoRdata) = true) (hw : s.memDoWdata = false)
    (haddr : s.memLaUsePrefetchedHighWord true = false) :
    s.memFsm true i = { s.toMemFsm with
      memAddr := s.memLaAddr true i
      memWstrb := 0
      memValid := true
      memInstr := s.memDoPrefetch || s.memDoRinst
      memState := 1
      prefetchedHighWord := s.kept s.prefetchedHighWord } := by
  have hasks : (s.memDoRinst || s.memDoPrefetch || s.memDoRdata) = true := by
    rw [Bool.or_comm s.memDoRinst, hr]
  have hread : s.memLaRead true i = true := by
    simp only [memLaRead, hasks, haddr, hs, decide_true, Bool.not_false, Bool.and_true, Bool.true_or]
  simp only [memFsm, htrap, hs, hr, hw, hread, haddr, memLaWrite, kept, Bool.not_true, Bool.not_false, Bool.or_self, Bool.false_eq_true, Bool.and_false,
    Bool.true_or, ↓reduceIte]

include htrap in
theorem memFsm_high (hs : s.memState = 0) (hr : (s.memDoPrefetch || s.memDoRinst || s.memDoRdata) = true) (hw : s.memDoWdata = false)
    (huse : s.memLaUsePrefetchedHighWord true = true) :
    ∃ addr, s.memFsm true i = { s.toMemFsm with
      memAddr := addr
      memWstrb := 0
      memValid := false
      memInstr := s.memDoPrefetch || s.memDoRinst
      memState := 1
      prefetchedHighWord := s.kept s.prefetchedHighWord } := by
  refine ⟨if s.memLaRead true i = true then s.memLaAddr true i else s.memAddr, ?_⟩
  simp only [memFsm, htrap, hs, hr, hw, huse, memLaWrite, kept, Bool.not_true, Bool.or_self, Bool.false_eq_true, Bool.and_false,
    Bool.or_false, ↓reduceIte]

include htrap in
/-- The transfer goes on. -/
theorem memFsm_wait (hs : s.memState = 1) (hx : s.memXfer true i = false) :
    s.memFsm true i = { s.toMemFsm with prefetchedHighWord := s.kept s.prefetchedHighWord } := by
  have hne : s.memState ≠ 0 := by rw [hs]; decide
  simp only [memFsm, htrap, hs, hx, memLaRead_of_not_xfer hne hx, memLaWrite_of_ne hne, kept, Bool.not_true, Bool.or_self,
    Bool.false_eq_true, BitVec.ofNat_eq_ofNat, BitVec.reduceEq, ↓reduceIte]

include htrap in
/-- The instruction goes on in the next word. -/
theorem memFsm_again (hs : s.memState = 1) (hx : s.memXfer true i = true) (hread : s.memLaRead true i = true) :
    s.memFsm true i = { s.toMemFsm with
      memAddr := s.memLaAddr true i
      memWstrb := 0
      memValid := true
      memLaSecondword := true
      mem16bitBuffer := if !s.memLaUsePrefetchedHighWord true then i.memRdata.extractLsb 31 16 else s.mem16bitBuffer
      prefetchedHighWord := s.kept s.prefetchedHighWord } := by
  have hne : s.memState ≠ 0 := by rw [hs]; decide
  simp only [memFsm, htrap, hs, hx, hread, memLaWrite_of_ne hne, kept, Bool.not_true, Bool.or_self, Bool.true_or,
    Bool.false_eq_true, BitVec.ofNat_eq_ofNat, BitVec.reduceEq, ↓reduceIte]

/-- The upper half of the word is kept. -/
def keeps (s : Core) (i : CoreIn) : Bool := !isFull i.memRdata || s.memLaSecondword

include htrap in
/-- The read is over. -/
theorem memFsm_last (hs : s.memState = 1) (hx : s.memXfer true i = true) (hread : s.memLaRead true i = false) :
    s.memFsm true i = { s.toMemFsm with
      memValid := false
      memLaSecondword := false
      mem16bitBuffer := if !s.memDoRdata && s.keeps i then i.memRdata.extractLsb 31 16 else s.mem16bitBuffer
      prefetchedHighWord := s.kept (if !s.memDoRdata then s.keeps i else s.prefetchedHighWord)
      memState := if s.memDoRinst || s.memDoRdata then 0 else 3 } := by
  have hne : s.memState ≠ 0 := by rw [hs]; decide
  simp only [memFsm, htrap, hs, hx, hread, memLaWrite_of_ne hne, kept, keeps, Bool.not_true, Bool.or_self,
    Bool.false_eq_true, BitVec.ofNat_eq_ofNat, BitVec.reduceEq, ↓reduceIte]
  rfl

include htrap in
theorem memFsm_collect (hs : s.memState = 3) (hx : s.memXfer true i = false) :
    s.memFsm true i = { s.toMemFsm with
      memState := if s.memDoRinst then 0 else 3
      prefetchedHighWord := s.kept s.prefetchedHighWord } := by
  have hne : s.memState ≠ 0 := by rw [hs]; decide
  simp only [memFsm, htrap, hs, memLaRead_of_not_xfer hne hx, memLaWrite_of_ne hne, kept, Bool.not_true, Bool.or_self,
    Bool.false_eq_true, BitVec.ofNat_eq_ofNat, BitVec.reduceEq, ↓reduceIte]

include htrap in
/-- A write starts. -/
theorem memFsm_write (hs : s.memState = 0) (hw : s.memDoWdata = true) (hr : (s.memDoPrefetch || s.memDoRinst || s.memDoRdata) = false) :
    s.memFsm true i = { s.toMemFsm with
      memAddr := s.memLaAddr true i
      memWstrb := s.memLaWstrb i
      memWdata := s.memLaWdata i
      memValid := true
      memInstr := false
      memState := 2
      prefetchedHighWord := s.kept s.prefetchedHighWord } := by
  simp only [memFsm, htrap, hs, hw, hr, memLaWrite, kept, Bool.not_true, Bool.or_self, Bool.false_eq_true, Bool.or_true,
    decide_true, Bool.and_true, ↓reduceIte]

include htrap in
theorem memFsm_writing (hs : s.memState = 2) (hx : s.memXfer true i = i.memReady) (hread : s.memLaRead true i = false) :
    s.memFsm true i = { s.toMemFsm with
      memValid := if i.memReady then false else s.memValid
      memState := if i.memReady then 0 else 2
      prefetchedHighWord := s.kept s.prefetchedHighWord } := by
  have hne : s.memState ≠ 0 := by rw [hs]; decide
  simp only [memFsm, htrap, hs, hx, hread, memLaWrite_of_ne hne, kept, Bool.not_true, Bool.or_self,
    Bool.false_eq_true, BitVec.ofNat_eq_ofNat, BitVec.reduceEq, ↓reduceIte]

end RiscvSoc.Cpu.Core
