import RiscvSoc.Cpu.Arch
import RiscvSoc.Cpu.MemEdges
import RiscvSoc.Lib.Concat
/-!
# The memory interface fetches the instruction at an address

A fetch reads the word of the address, or takes its upper half from the buffer, and reads one
word more if a full instruction goes on there. It may be a prefetch, which waits for the
request behind it before the second word, or with the word it has.
-/

namespace RiscvSoc.Cpu

open Rv32 Concat

namespace Core

variable {code : Word32 → Word32} {T : Word32} {r q : Bool} {s : Core} {i : CoreIn}

/-- The instruction behind is not the next in memory: the buffer is given up. -/
def jumps (s : Core) : Bool := s.latchedBranch || s.irqState ≠ 0

/-- No transaction. -/
structure Idle (s : Core) : Prop where
  state : s.memState = 0
  valid : s.memValid = false
  second : s.memLaSecondword = false
  last : s.lastMemValid = false

/-- If `T` is the upper half of a word, the buffer has it. -/
def Buffered (code : Word32 → Word32) (T : Word32) (s : Core) : Prop :=
  T.getLsbD 1 = true → s.prefetchedHighWord = true ∧ s.mem16bitBuffer = half code T

/-- The buffer has nothing else. -/
def Ready (code : Word32 → Word32) (T : Word32) (s : Core) : Prop :=
  s.jumps = true ∨ s.prefetchedHighWord = false ∨ Buffered code T s

/-- The word that `T` is in is on its way. -/
structure First (T : Word32) (r : Bool) (s : Core) : Prop where
  state : s.memState = 1
  valid : s.memValid = true
  instr : s.memInstr = true
  wstrb : s.memWstrb = 0
  addr : s.memAddr = wordAddr T
  second : s.memLaSecondword = false
  reg : s.lastMemValid = true → s.memLaFirstwordReg = T.getLsbD 1
  high : T.getLsbD 1 = true → r = true ∧ s.prefetchedHighWord = false

/-- The upper half is taken from the buffer. -/
structure High (code : Word32 → Word32) (T : Word32) (s : Core) : Prop where
  state : s.memState = 1
  valid : s.memValid = false
  instr : s.memInstr = true
  second : s.memLaSecondword = false
  last : s.lastMemValid = false
  high : T.getLsbD 1 = true
  buffer : Buffered code T s

/-- The second word is on its way. -/
structure Second (code : Word32 → Word32) (T : Word32) (r : Bool) (s : Core) : Prop where
  state : s.memState = 1
  valid : s.memValid = true
  instr : s.memInstr = true
  wstrb : s.memWstrb = 0
  addr : s.memAddr = wordAddr (T + 2)
  second : s.memLaSecondword = true
  request : r = true
  high : T.getLsbD 1 = true
  buffer : s.mem16bitBuffer = half code T
  full : (half code T).extractLsb 1 0 = 0b11#2

/-- A prefetch has read the word and waits for the request. -/
structure Prefetched (code : Word32 → Word32) (T : Word32) (s : Core) : Prop where
  state : s.memState = 3
  valid : s.memValid = false
  second : s.memLaSecondword = false
  last : s.lastMemValid = false
  low : T.getLsbD 1 = false
  word : s.memRdataQ = code (wordAddr T)
  buffer : isFull (code (wordAddr T)) = false → Buffered code (T + 2) s

/-- A fetch from `T` is under way or about to start; `r` says that it is more than a prefetch. -/
inductive Fetching (code : Word32 → Word32) (T : Word32) (r : Bool) (s : Core) : Prop
  | idle (h : Idle s) (hr : Ready code T s) (hp : r = false → s.jumps = false ∧ Buffered code T s)
  | first (h : First T r s) (hj : s.jumps = false)
  | high (h : High code T s) (hj : s.jumps = false)
  | second (h : Second code T r s) (hj : s.jumps = false)
  | prefetched (h : Prefetched code T s) (hj : s.jumps = false)

/-- What the main state machine asks for. -/
structure Asks (T : Word32) (s : Core) : Prop where
  trap : s.trap = false
  rdata : s.memDoRdata = false
  wdata : s.memDoWdata = false
  asks : (s.memDoPrefetch || s.memDoRinst) = true
  nextPc : s.nextPc = T
  clear : s.clearPrefetchedHighWordQ = true → s.prefetchedHighWord = false

/-- An instruction has come in. -/
structure Fetched (code : Word32 → Word32) (T : Word32) (s : Core) (i : CoreIn) : Prop where
  done : s.memDone true i = true
  rinst : s.memDoRinst = true
  idle : Idle (s.step true i)
  insn : Insn.ofWord (s.memRdataLatched true i) = insnAt code T
  length : Insn.length (s.memRdataLatched true i) = lengthAt code T
  buffered : Buffered code (T + lengthAt code T) (s.step true i)
  q : (s.step true i).memRdataQ = expandQ (s.memRdataLatched true i) (s.memRdataLatched true i)

/-- The instruction memory answers. -/
def Answers (code : Word32 → Word32) (s : Core) (i : CoreIn) : Prop :=
  s.memValid = true → s.memInstr = true → i.memReady = true → i.memRdata = code s.memAddr

/-! ## What is read -/

section Words

variable {x : Word32}

/-- `x` is what is at `T`, but for what is behind a compressed instruction. -/
structure Holds (code : Word32 → Word32) (T x : Word32) : Prop where
  low : x.extractLsb 15 0 = half code T
  full : isFull x = true → x = fetchWord code T

theorem isFull_eq_half (h : x.extractLsb 15 0 = half code T) : isFull x = decide ((half code T).extractLsb 1 0 = 0b11#2) := by
  rw [isFull, ← h, extract_low x (by omega) (by omega)]
  rfl

theorem Holds.isFull_eq (h : Holds code T x) : isFull x = isFull (fetchWord code T) := by
  rw [isFull_eq_half h.low, isFull_eq_half fetchWord_low]

theorem Holds.insn (h : Holds code T x) : Insn.ofWord x = insnAt code T := by
  cases hfull : isFull x with
  | true => rw [insnAt, ← h.full hfull]
  | false =>
    have hfetch := h.isFull_eq ▸ hfull
    have hx : x.extractLsb 1 0 ≠ 0b11 := of_decide_eq_false hfull
    have hw : (fetchWord code T).extractLsb 1 0 ≠ 0b11 := of_decide_eq_false hfetch
    unfold insnAt Insn.ofWord
    rw [if_pos hx, if_pos hw, h.low, fetchWord_low]

theorem Holds.length (h : Holds code T x) : Insn.length x = lengthAt code T := by
  have hfull := decide_eq_decide.1 h.isFull_eq
  unfold lengthAt Insn.length
  simp only [ne_eq, hfull]

theorem lengthAt_of_full (h : isFull (fetchWord code T) = true) : lengthAt code T = 4 := by
  unfold lengthAt Insn.length
  rw [if_neg (not_not.2 (of_decide_eq_true h))]

theorem lengthAt_of_compressed (h : isFull (fetchWord code T) = false) : lengthAt code T = 2 := by
  unfold lengthAt Insn.length
  rw [if_pos (of_decide_eq_false h)]

end Words

/-! ## The steps of a fetch -/

section Steps

variable (ha : Asks T s)

/-- What the registers of the interface are after an edge. -/
theorem lastMemValid_step : (s.step true i).lastMemValid = (s.memValid && !i.memReady) := rfl

theorem memLaFirstwordReg_step : (s.step true i).memLaFirstwordReg = if !s.lastMemValid then s.memLaFirstword else s.memLaFirstwordReg := rfl

theorem clearPrefetched_of_jumps (h : s.jumps = true) : s.clearPrefetchedHighWord true = true := by
  unfold clearPrefetchedHighWord
  rw [if_pos (by simpa [jumps] using h)]

theorem kept_of_jumps (h : s.jumps = true) (b : Bool) : s.kept b = false := by
  rw [kept, if_pos (clearPrefetched_of_jumps h)]

theorem clearPrefetched_of_not_jumps (h : s.jumps = false) (hc : s.clearPrefetchedHighWordQ = true → s.prefetchedHighWord = false) :
    s.clearPrefetchedHighWord true = false := by
  unfold clearPrefetchedHighWord
  rw [if_neg (by simpa [jumps] using h)]
  cases hp : s.prefetchedHighWord with
  | false => rfl
  | true =>
    cases hq : s.clearPrefetchedHighWordQ with
    | false => rfl
    | true => rw [hc hq] at hp; cases hp

theorem kept_of_not_jumps (h : s.jumps = false) (hc : s.clearPrefetchedHighWordQ = true → s.prefetchedHighWord = false) (b : Bool) :
    s.kept b = b := by
  rw [kept, clearPrefetched_of_not_jumps h hc, if_neg Bool.false_ne_true]

/-- While a transfer is under way. -/
theorem memDone_of_busy (hs : s.memState = 1 ∨ s.memState = 2) : s.memDone true i =
    (s.memXfer true i && (s.memDoRinst || s.memDoRdata || s.memDoWdata) &&
      (!s.memLaFirstword || (!isFull (s.memRdataLatched true i) && s.memXfer true i))) := by
  rcases hs with hs | hs <;> simp only [memDone, hs] <;> simp

theorem memRdataQ_step : (s.step true i).memRdataQ = s.memRdataQNext true i := rfl

theorem memRdataQNext_of_done (hd : s.memDone true i = true) (hasks : (s.memDoPrefetch || s.memDoRinst) = true)
    (hq : s.memXfer true i = false → s.memRdataQ = s.memRdataLatched true i) :
    s.memRdataQNext true i = expandQ (s.memRdataLatched true i) (s.memRdataLatched true i) := by
  unfold memRdataQNext
  rw [hd, hasks, Bool.and_self]
  cases hx : s.memXfer true i with
  | false => rw [hq hx]; rfl
  | true => rfl

include ha in
theorem Asks.firstword : s.memLaFirstword = (T.getLsbD 1 && !s.memLaSecondword) := by
  rw [memLaFirstword, ha.asks, ha.nextPc, Bool.true_and]

include ha in
theorem Asks.firstword_of_second (h : s.memLaSecondword = true) : s.memLaFirstword = false := by
  rw [ha.firstword, h]
  exact Bool.and_false _

include ha in
theorem Asks.usePrefetched (h2 : s.memLaSecondword = false) :
    s.memLaUsePrefetchedHighWord true = (T.getLsbD 1 && (s.prefetchedHighWord && !s.clearPrefetchedHighWord true)) := by
  rw [memLaUsePrefetchedHighWord, ha.firstword, h2, Bool.and_assoc]
  simp

include ha in
/-- The address of the first word. -/
theorem Asks.addr (hx : s.memLaFirstwordXfer true i = false) : s.memLaAddr true i = wordAddr T := by
  rw [memLaAddr, if_pos ha.asks, ha.nextPc, hx]
  exact congrArg (· ++ 0b00#2) (BitVec.add_zero _)

include ha in
/-- The address of the second word. -/
theorem Asks.addr_second (hx : s.memLaFirstwordXfer true i = true) (hT : T.getLsbD 1 = true) : s.memLaAddr true i = wordAddr (T + 2) := by
  rw [memLaAddr, if_pos ha.asks, ha.nextPc, hx]
  exact wordAddr_succ hT

/-! ### The first word -/

section First

variable (h : First T s.memDoRinst s)

include ha h in
theorem First.usePrefetched : s.memLaUsePrefetchedHighWord true = false := by
  rw [ha.usePrefetched h.second]
  cases hT : T.getLsbD 1 with
  | false => rfl
  | true => rw [(h.high hT).2]; rfl

include ha h in
theorem First.xfer : s.memXfer true i = i.memReady := by
  rw [memXfer, h.usePrefetched ha, h.valid, Bool.false_and, Bool.or_false, Bool.true_and]

include ha h in
theorem First.firstword : s.memLaFirstword = T.getLsbD 1 := by
  rw [ha.firstword, h.second]
  exact Bool.and_true _

include ha h in
theorem First.firstwordXfer : s.memLaFirstwordXfer true i = (i.memReady && T.getLsbD 1) := by
  rw [memLaFirstwordXfer, h.xfer ha, h.firstword ha]
  cases hl : s.lastMemValid with
  | false => rfl
  | true => rw [h.reg hl]; rfl

include ha h in
theorem First.read : s.memLaRead true i = (i.memReady && T.getLsbD 1 && isFull (s.memRdataLatched true i)) := by
  rw [memLaRead, h.firstwordXfer ha, h.state, h.second]
  simp

include ha h in
theorem First.holds_low (hr : i.memReady = true) (hc : Answers code s i) (hT : T.getLsbD 1 = false) :
    Holds code T (s.memRdataLatched true i) ∧ s.memRdataLatched true i = code (wordAddr T) := by
  have hword : s.memRdataLatched true i = code (wordAddr T) := by
    rw [memRdataLatched, h.usePrefetched ha, h.second, h.firstword ha, hT, if_neg Bool.false_ne_true, if_neg Bool.false_ne_true,
      if_neg Bool.false_ne_true, memRdataLatchedNoshuffle, h.xfer ha, if_pos hr, hc h.valid h.instr hr, h.addr]
  refine ⟨⟨?_, fun _ => ?_⟩, hword⟩
  · rw [hword, half_low hT]
  · rw [hword, fetchWord_low_half hT]

include ha h in
theorem First.low_high (hr : i.memReady = true) (hc : Answers code s i) (hT : T.getLsbD 1 = true) :
    (s.memRdataLatched true i).extractLsb 15 0 = half code T := by
  rw [memRdataLatched, h.usePrefetched ha, h.second, h.firstword ha, hT, if_neg Bool.false_ne_true, if_neg Bool.false_ne_true,
    if_pos rfl, memRdataLatchedNoshuffle, h.xfer ha, if_pos hr, hc h.valid h.instr hr, h.addr, half_high hT]
  exact BitVec.extractLsb'_append_eq_right

end First


section

variable (h : First T s.memDoRinst s) (hj : s.jumps = false)

include ha h hj in
theorem First.wait (hr : i.memReady = false) (hr' : s.memDoRinst = true → q = true) : s.memDone true i = false ∧ First T q (s.step true i) := by
  have hx : s.memXfer true i = false := (h.xfer ha).trans hr
  have hm := memFsm_wait ha.trap h.state hx
  rw [kept_of_not_jumps hj ha.clear] at hm
  refine ⟨by rw [memDone_of_busy (.inl h.state), hx, Bool.false_and, Bool.false_and], ?_⟩
  refine ⟨congrArg MemFsm.memState hm ▸ h.state, congrArg MemFsm.memValid hm ▸ h.valid, congrArg MemFsm.memInstr hm ▸ h.instr,
    congrArg MemFsm.memWstrb hm ▸ h.wstrb, congrArg MemFsm.memAddr hm ▸ h.addr, congrArg MemFsm.memLaSecondword hm ▸ h.second,
    fun _ => ?_, fun hT => ⟨hr' (h.high hT).1, congrArg MemFsm.prefetchedHighWord hm ▸ (h.high hT).2⟩⟩
  rw [memLaFirstwordReg_step, h.firstword ha]
  cases hl : s.lastMemValid with
  | false => rfl
  | true => exact h.reg hl

include ha h hj in
/-- The prefetch has its word. -/
theorem First.prefetched (hr : i.memReady = true) (hc : Answers code s i) (hp : s.memDoRinst = false) :
    s.memDone true i = false ∧ Prefetched code T (s.step true i) := by
  have hT : T.getLsbD 1 = false := by
    cases hT : T.getLsbD 1 with
    | false => rfl
    | true => rw [(h.high hT).1] at hp; cases hp
  have hx : s.memXfer true i = true := (h.xfer ha).trans hr
  have hread : s.memLaRead true i = false := by rw [h.read ha, hT, Bool.and_false, Bool.false_and]
  have hm := memFsm_last ha.trap h.state hx hread
  rw [kept_of_not_jumps hj ha.clear, ha.rdata, hp] at hm
  have hdone : s.memDone true i = false := by
    rw [memDone_of_busy (.inl h.state), hp, ha.rdata, ha.wdata, Bool.or_self, Bool.or_self, Bool.and_false, Bool.false_and]
  obtain ⟨-, hword⟩ := h.holds_low ha hr hc hT
  have hdata : i.memRdata = code (wordAddr T) := by rw [hc h.valid h.instr hr, h.addr]
  refine ⟨hdone, congrArg MemFsm.memState hm, congrArg MemFsm.memValid hm, congrArg MemFsm.memLaSecondword hm, ?_, hT, ?_, ?_⟩
  · rw [lastMemValid_step, hr]
    exact Bool.and_false _
  · rw [memRdataQ_step]
    unfold memRdataQNext
    rw [hdone, Bool.false_and, if_neg Bool.false_ne_true, if_pos hx, hword]
  · intro hfull _
    have hkeep : s.keeps i = true := by rw [keeps, hdata, hfull]; rfl
    refine ⟨(congrArg MemFsm.prefetchedHighWord hm).trans hkeep, (congrArg MemFsm.mem16bitBuffer hm).trans ?_⟩
    rw [hkeep, half_add_two hT, ← hdata]
    rfl

include ha in
/-- The read that ends a fetch. -/
theorem Asks.fetched (hr : s.memDoRinst = true) (hj : s.jumps = false) (hs : s.memState = 1) (hx : s.memXfer true i = true)
    (hread : s.memLaRead true i = false) (hdone : s.memDone true i = true) (hlast : (s.memValid && !i.memReady) = false)
    (hh : Holds code T (s.memRdataLatched true i))
    (hb : (T + lengthAt code T).getLsbD 1 = true → s.keeps i = true ∧ i.memRdata.extractLsb 31 16 = half code (T + lengthAt code T)) :
    Fetched code T s i := by
  have hm := memFsm_last ha.trap hs hx hread
  rw [kept_of_not_jumps hj ha.clear, ha.rdata, hr] at hm
  refine ⟨hdone, hr, ⟨congrArg MemFsm.memState hm, congrArg MemFsm.memValid hm, congrArg MemFsm.memLaSecondword hm, hlast⟩,
    hh.insn, hh.length, fun h1 => ?_, ?_⟩
  · obtain ⟨hkeep, hbuf⟩ := hb h1
    refine ⟨(congrArg MemFsm.prefetchedHighWord hm).trans hkeep, (congrArg MemFsm.mem16bitBuffer hm).trans ?_⟩
    rw [hkeep]
    exact hbuf
  · rw [memRdataQ_step]
    exact memRdataQNext_of_done hdone ha.asks fun hx' => by rw [hx] at hx'; cases hx'

include ha h hj in
theorem First.fetched_low (hr : i.memReady = true) (hc : Answers code s i) (hi : s.memDoRinst = true) (hT : T.getLsbD 1 = false) :
    Fetched code T s i := by
  have hx : s.memXfer true i = true := (h.xfer ha).trans hr
  obtain ⟨hh, -⟩ := h.holds_low ha hr hc hT
  have hdata : i.memRdata = code (wordAddr T) := by rw [hc h.valid h.instr hr, h.addr]
  refine ha.fetched hi hj h.state hx (by rw [h.read ha, hT, Bool.and_false, Bool.false_and]) ?_ ?_ hh fun h1 => ?_
  · rw [memDone_of_busy (.inl h.state), hx, hi, h.firstword ha, hT]
    rfl
  · rw [hr]
    exact Bool.and_false _
  · cases hfull : isFull (fetchWord code T) with
    | true =>
      rw [lengthAt_of_full hfull, getLsbD_one_add_four, hT] at h1
      cases h1
    | false =>
      rw [fetchWord_low_half hT, ← hdata] at hfull
      rw [keeps, hfull, lengthAt_of_compressed (by rw [fetchWord_low_half hT, ← hdata, hfull]), half_add_two hT, hdata]
      exact ⟨rfl, rfl⟩

include ha h hj in
theorem First.fetched_high (hr : i.memReady = true) (hc : Answers code s i) (hT : T.getLsbD 1 = true)
    (hfull : isFull (s.memRdataLatched true i) = false) : Fetched code T s i := by
  have hx : s.memXfer true i = true := (h.xfer ha).trans hr
  have hi : s.memDoRinst = true := (h.high hT).1
  have hh : Holds code T (s.memRdataLatched true i) := ⟨h.low_high ha hr hc hT, fun h' => by rw [hfull] at h'; cases h'⟩
  refine ha.fetched hi hj h.state hx (by rw [h.read ha, hfull, Bool.and_false]) ?_ ?_ hh fun h1 => ?_
  · rw [memDone_of_busy (.inl h.state), hx, hi, hfull]
    cases s.memLaFirstword <;> rfl
  · rw [hr]
    exact Bool.and_false _
  · rw [lengthAt_of_compressed (hh.isFull_eq ▸ hfull), getLsbD_one_add_two, hT] at h1
    cases h1

include ha h in
theorem First.goesOn (hr : i.memReady = true) (hc : Answers code s i) (hT : T.getLsbD 1 = true)
    (hfull : isFull (s.memRdataLatched true i) = true) (hr' : s.memDoRinst = true → q = true) :
    s.memDone true i = false ∧ Second code T q (s.step true i) := by
  have hx : s.memXfer true i = true := (h.xfer ha).trans hr
  have hread : s.memLaRead true i = true := by rw [h.read ha, hr, hT, hfull]; rfl
  have hm := memFsm_again ha.trap h.state hx hread
  have hlow := h.low_high ha hr hc hT
  have hfx : s.memLaFirstwordXfer true i = true := by rw [h.firstwordXfer ha, hr, hT]; rfl
  rw [h.usePrefetched ha, ha.addr_second hfx hT] at hm
  refine ⟨?_, congrArg MemFsm.memState hm ▸ h.state, congrArg MemFsm.memValid hm, congrArg MemFsm.memInstr hm ▸ h.instr,
    congrArg MemFsm.memWstrb hm, congrArg MemFsm.memAddr hm, congrArg MemFsm.memLaSecondword hm, hr' (h.high hT).1, hT, ?_, ?_⟩
  · rw [memDone_of_busy (.inl h.state), h.firstword ha, hT, hfull]
    simp
  · refine (congrArg MemFsm.mem16bitBuffer hm).trans ?_
    rw [half_high hT, ← h.addr, ← hc h.valid h.instr hr]
    rfl
  · rw [isFull_eq_half hlow] at hfull
    exact of_decide_eq_true hfull

end

/-! ### The upper half from the buffer -/

section

variable (h : High code T s) (hj : s.jumps = false)

include ha h hj in
theorem High.usePrefetched : s.memLaUsePrefetchedHighWord true = true := by
  rw [ha.usePrefetched h.second, h.high, (h.buffer h.high).1, clearPrefetched_of_not_jumps hj ha.clear]
  rfl

include ha h hj in
theorem High.xfer : s.memXfer true i = s.memDoRinst := by
  rw [memXfer, h.usePrefetched ha hj, h.valid]
  simp

include ha h hj in
theorem High.low : (s.memRdataLatched true i).extractLsb 15 0 = half code T := by
  rw [memRdataLatched, if_pos (h.usePrefetched ha hj), (h.buffer h.high).2]
  exact BitVec.extractLsb'_append_eq_right

include ha h hj in
theorem High.firstwordXfer : s.memLaFirstwordXfer true i = s.memDoRinst := by
  rw [memLaFirstwordXfer, h.xfer ha hj, h.last, ha.firstword, h.second, h.high]
  exact Bool.and_true _

include ha h hj in
theorem High.read : s.memLaRead true i = (s.memDoRinst && isFull (s.memRdataLatched true i)) := by
  rw [memLaRead, h.firstwordXfer ha hj, h.state, h.second]
  simp

include ha h hj in
theorem High.wait (hr : s.memDoRinst = false) : s.memDone true i = false ∧ High code T (s.step true i) := by
  have hx : s.memXfer true i = false := (h.xfer ha hj).trans hr
  have hm := memFsm_wait ha.trap h.state hx
  rw [kept_of_not_jumps hj ha.clear] at hm
  refine ⟨by rw [memDone_of_busy (.inl h.state), hx, Bool.false_and, Bool.false_and], congrArg MemFsm.memState hm ▸ h.state,
    congrArg MemFsm.memValid hm ▸ h.valid, congrArg MemFsm.memInstr hm ▸ h.instr, congrArg MemFsm.memLaSecondword hm ▸ h.second,
    ?_, h.high, fun hT => ?_⟩
  · rw [lastMemValid_step, h.valid, Bool.false_and]
  · exact ⟨(congrArg MemFsm.prefetchedHighWord hm).trans (h.buffer hT).1, (congrArg MemFsm.mem16bitBuffer hm).trans (h.buffer hT).2⟩

include ha h hj in
theorem High.fetched (hr : s.memDoRinst = true) (hfull : isFull (s.memRdataLatched true i) = false) : Fetched code T s i := by
  have hx : s.memXfer true i = true := (h.xfer ha hj).trans hr
  have hh : Holds code T (s.memRdataLatched true i) := ⟨h.low ha hj, fun h' => by rw [hfull] at h'; cases h'⟩
  refine ha.fetched hr hj h.state hx (by rw [h.read ha hj, hfull, Bool.and_false]) ?_ ?_ hh fun h1 => ?_
  · rw [memDone_of_busy (.inl h.state), hx, hr, hfull]
    cases s.memLaFirstword <;> rfl
  · rw [h.valid, Bool.false_and]
  · rw [lengthAt_of_compressed (hh.isFull_eq ▸ hfull), getLsbD_one_add_two, h.high] at h1
    cases h1

include ha h hj in
theorem High.goesOn (hr : s.memDoRinst = true) (hfull : isFull (s.memRdataLatched true i) = true)
    (hr' : s.memDoRinst = true → q = true) : s.memDone true i = false ∧ Second code T q (s.step true i) := by
  have hx : s.memXfer true i = true := (h.xfer ha hj).trans hr
  have hread : s.memLaRead true i = true := by rw [h.read ha hj, hr, hfull]; rfl
  have hm := memFsm_again ha.trap h.state hx hread
  have hlow := h.low (i := i) ha hj
  rw [h.usePrefetched ha hj, ha.addr_second ((h.firstwordXfer ha hj).trans hr) h.high] at hm
  refine ⟨?_, congrArg MemFsm.memState hm ▸ h.state, congrArg MemFsm.memValid hm, congrArg MemFsm.memInstr hm ▸ h.instr,
    congrArg MemFsm.memWstrb hm, congrArg MemFsm.memAddr hm, congrArg MemFsm.memLaSecondword hm, hr' hr, h.high, ?_, ?_⟩
  · rw [memDone_of_busy (.inl h.state), ha.firstword, h.second, h.high, hfull]
    simp
  · exact (congrArg MemFsm.mem16bitBuffer hm).trans (h.buffer h.high).2
  · rw [isFull_eq_half hlow] at hfull
    exact of_decide_eq_true hfull

end


/-! ### The second word -/

section

variable (h : Second code T s.memDoRinst s) (hj : s.jumps = false)

include ha h in
theorem Second.usePrefetched : s.memLaUsePrefetchedHighWord true = false := by
  rw [memLaUsePrefetchedHighWord, ha.firstword_of_second h.second, Bool.false_and, Bool.false_and]

include ha h in
theorem Second.xfer : s.memXfer true i = i.memReady := by
  rw [memXfer, h.usePrefetched ha, h.valid, Bool.false_and, Bool.or_false, Bool.true_and]

include h in
theorem Second.read : s.memLaRead true i = false := by
  rw [memLaRead, h.state, h.second]
  simp

include ha h in
theorem Second.holds (hr : i.memReady = true) (hc : Answers code s i) : s.memRdataLatched true i = fetchWord code T := by
  have hT : (T + 2).getLsbD 1 = false := by rw [getLsbD_one_add_two, h.high]; rfl
  rw [memRdataLatched, h.usePrefetched ha, h.second, if_neg Bool.false_ne_true, if_pos rfl, memRdataLatchedNoshuffle, h.xfer ha, if_pos hr,
    hc h.valid h.instr hr, h.addr, h.buffer, fetchWord, half_low hT]

include ha h hj in
theorem Second.wait (hr : i.memReady = false) (hr' : s.memDoRinst = true → q = true) :
    s.memDone true i = false ∧ Second code T q (s.step true i) := by
  have hx : s.memXfer true i = false := (h.xfer ha).trans hr
  have hm := memFsm_wait ha.trap h.state hx
  rw [kept_of_not_jumps hj ha.clear] at hm
  exact ⟨by rw [memDone_of_busy (.inl h.state), hx, Bool.false_and, Bool.false_and], congrArg MemFsm.memState hm ▸ h.state,
    congrArg MemFsm.memValid hm ▸ h.valid, congrArg MemFsm.memInstr hm ▸ h.instr, congrArg MemFsm.memWstrb hm ▸ h.wstrb,
    congrArg MemFsm.memAddr hm ▸ h.addr, congrArg MemFsm.memLaSecondword hm ▸ h.second, hr' h.request, h.high,
    (congrArg MemFsm.mem16bitBuffer hm).trans h.buffer, h.full⟩

include ha h hj in
theorem Second.fetched (hr : i.memReady = true) (hc : Answers code s i) : Fetched code T s i := by
  have hx : s.memXfer true i = true := (h.xfer ha).trans hr
  have hword := h.holds ha hr hc
  have hfull : isFull (fetchWord code T) = true := by
    rw [isFull_eq_half fetchWord_low]
    exact decide_eq_true h.full
  have hdata : i.memRdata = code (wordAddr (T + 2)) := by rw [hc h.valid h.instr hr, h.addr]
  have hh : Holds code T (s.memRdataLatched true i) := ⟨hword ▸ fetchWord_low, fun _ => hword⟩
  refine ha.fetched h.request hj h.state hx h.read ?_ ?_ hh fun h1 => ?_
  · rw [memDone_of_busy (.inl h.state), hx, h.request, ha.firstword_of_second h.second]
    rfl
  · rw [hr]
    exact Bool.and_false _
  · rw [lengthAt_of_full hfull] at h1 ⊢
    refine ⟨by rw [keeps, h.second, Bool.or_true], ?_⟩
    rw [half_high h1, wordAddr_add_four h.high, hdata]

end

/-! ### A prefetch that waits -/

section

variable (h : Prefetched code T s) (hj : s.jumps = false)

include ha h in
theorem Prefetched.xfer : s.memXfer true i = false := by
  rw [memXfer, ha.usePrefetched h.second, h.low, h.valid]
  rfl

include ha h in
theorem Prefetched.latched : s.memRdataLatched true i = code (wordAddr T) := by
  rw [memRdataLatched, ha.usePrefetched h.second, ha.firstword, h.second, h.low, Bool.false_and, if_neg Bool.false_ne_true,
    if_neg Bool.false_ne_true, Bool.false_and, if_neg Bool.false_ne_true, memRdataLatchedNoshuffle, h.xfer ha,
    if_neg Bool.false_ne_true, h.word]

include ha h in
theorem Prefetched.done : s.memDone true i = s.memDoRinst := by
  rw [memDone, h.xfer ha, h.state, ha.firstword, h.low]
  simp

include ha h hj in
theorem Prefetched.wait (hr : s.memDoRinst = false) : s.memDone true i = false ∧ Prefetched code T (s.step true i) := by
  have hm := memFsm_collect ha.trap h.state (h.xfer (i := i) ha)
  rw [kept_of_not_jumps hj ha.clear, hr] at hm
  have hdone : s.memDone true i = false := (h.done ha).trans hr
  refine ⟨hdone, congrArg MemFsm.memState hm, congrArg MemFsm.memValid hm ▸ h.valid, congrArg MemFsm.memLaSecondword hm ▸ h.second,
    ?_, h.low, ?_, fun hfull h2 => ?_⟩
  · rw [lastMemValid_step, h.valid, Bool.false_and]
  · rw [memRdataQ_step]
    unfold memRdataQNext
    rw [hdone, Bool.false_and, if_neg Bool.false_ne_true, if_neg (by rw [h.xfer ha]; exact Bool.false_ne_true), h.word]
  · exact ⟨(congrArg MemFsm.prefetchedHighWord hm).trans (h.buffer hfull h2).1,
      (congrArg MemFsm.mem16bitBuffer hm).trans (h.buffer hfull h2).2⟩

include ha h hj in
theorem Prefetched.fetched (hr : s.memDoRinst = true) : Fetched code T s i := by
  have hm := memFsm_collect ha.trap h.state (h.xfer (i := i) ha)
  rw [kept_of_not_jumps hj ha.clear, hr] at hm
  have hdone : s.memDone true i = true := (h.done ha).trans hr
  have hword := h.latched (i := i) ha
  have hh : Holds code T (s.memRdataLatched true i) := ⟨by rw [hword, half_low h.low], fun _ => by rw [hword, fetchWord_low_half h.low]⟩
  refine ⟨hdone, hr, ⟨congrArg MemFsm.memState hm, congrArg MemFsm.memValid hm ▸ h.valid, congrArg MemFsm.memLaSecondword hm ▸ h.second, ?_⟩,
    hh.insn, hh.length, fun h1 => ?_, ?_⟩
  · rw [lastMemValid_step, h.valid, Bool.false_and]
  · have hfetch : fetchWord code T = code (wordAddr T) := fetchWord_low_half h.low
    cases hfull : isFull (fetchWord code T) with
    | true =>
      rw [lengthAt_of_full hfull, getLsbD_one_add_four, h.low] at h1
      cases h1
    | false =>
      rw [lengthAt_of_compressed hfull] at h1 ⊢
      obtain ⟨hpre, hbuf⟩ := h.buffer (hfetch ▸ hfull) h1
      exact ⟨(congrArg MemFsm.prefetchedHighWord hm).trans hpre, (congrArg MemFsm.mem16bitBuffer hm).trans hbuf⟩
  · rw [memRdataQ_step]
    exact memRdataQNext_of_done hdone ha.asks fun _ => by rw [h.word, hword]

end

/-! ### The start -/

section

variable (h : Idle s)

include h in
theorem Idle.xfer : s.memXfer true i = (s.memLaUsePrefetchedHighWord true && s.memDoRinst) := by
  rw [memXfer, h.valid, Bool.false_and, Bool.false_or]

include h in
theorem Idle.done : s.memDone true i = false := by
  rw [memDone, h.state]
  simp

include ha h in
/-- The buffer has the upper half. -/
theorem Idle.high (hb : Buffered code T s) (hj : s.jumps = false) (huse : s.memLaUsePrefetchedHighWord true = true) :
    High code T (s.step true i) := by
  have hreq : (s.memDoPrefetch || s.memDoRinst || s.memDoRdata) = true := by rw [ha.asks, Bool.true_or]
  obtain ⟨addr, hm⟩ := memFsm_high (i := i) ha.trap h.state hreq ha.wdata huse
  rw [ha.usePrefetched h.second, Bool.and_eq_true, Bool.and_eq_true] at huse
  obtain ⟨hT, hpre, -⟩ := huse
  rw [kept_of_not_jumps hj ha.clear] at hm
  refine ⟨congrArg MemFsm.memState hm, congrArg MemFsm.memValid hm, (congrArg MemFsm.memInstr hm).trans ha.asks,
    congrArg MemFsm.memLaSecondword hm ▸ h.second, ?_, hT, fun _ => ?_⟩
  · rw [lastMemValid_step, h.valid, Bool.false_and]
  · exact ⟨(congrArg MemFsm.prefetchedHighWord hm).trans hpre, (congrArg MemFsm.mem16bitBuffer hm).trans (hb hT).2⟩

include ha h in
/-- It has not. -/
theorem Idle.first (huse : s.memLaUsePrefetchedHighWord true = false) (hr : T.getLsbD 1 = true → r = true) :
    First T r (s.step true i) := by
  have hreq : (s.memDoPrefetch || s.memDoRinst || s.memDoRdata) = true := by rw [ha.asks, Bool.true_or]
  have hx : s.memLaFirstwordXfer true i = false := by rw [memLaFirstwordXfer, h.xfer, huse, Bool.false_and, Bool.false_and]
  have hm := memFsm_read (i := i) ha.trap h.state hreq ha.wdata huse
  rw [ha.addr hx] at hm
  refine ⟨congrArg MemFsm.memState hm, congrArg MemFsm.memValid hm, (congrArg MemFsm.memInstr hm).trans ha.asks,
    congrArg MemFsm.memWstrb hm, congrArg MemFsm.memAddr hm, congrArg MemFsm.memLaSecondword hm ▸ h.second, fun hl => ?_,
    fun hT => ⟨hr hT, (congrArg MemFsm.prefetchedHighWord hm).trans ?_⟩⟩
  · rw [lastMemValid_step, h.valid, Bool.false_and] at hl
    cases hl
  · rw [ha.usePrefetched h.second, hT, Bool.true_and] at huse
    unfold kept
    cases hclear : s.clearPrefetchedHighWord true with
    | true => rfl
    | false => simpa [hclear] using huse

include ha h in
/-- The next half is taken from the buffer if it is there. -/
theorem Idle.usePrefetched (hb : Buffered code T s) (hj : s.jumps = false) : s.memLaUsePrefetchedHighWord true = T.getLsbD 1 := by
  rw [ha.usePrefetched h.second, clearPrefetched_of_not_jumps hj ha.clear]
  cases hT : T.getLsbD 1 with
  | false => rfl
  | true => rw [(hb hT).1]; rfl

include ha h in
theorem Idle.starts (hr : Ready code T s) (hp : s.memDoRinst = false → s.jumps = false ∧ Buffered code T s)
    (hr' : s.memDoRinst = true → q = true) (hj' : (s.step true i).jumps = false) : Fetching code T q (s.step true i) := by
  cases huse : s.memLaUsePrefetchedHighWord true with
  | true =>
    have hbits := huse
    rw [ha.usePrefetched h.second, Bool.and_eq_true, Bool.and_eq_true, Bool.not_eq_true'] at hbits
    obtain ⟨-, hpre, hclear⟩ := hbits
    have hj : s.jumps = false := by
      cases hj : s.jumps with
      | false => rfl
      | true => rw [clearPrefetched_of_jumps hj] at hclear; cases hclear
    rcases hr with h' | h' | h'
    · rw [hj] at h'; cases h'
    · rw [hpre] at h'; cases h'
    · exact .high (h.high ha h' hj huse) hj'
  | false =>
    refine .first (h.first ha huse fun hT => ?_) hj'
    cases hi : s.memDoRinst with
    | true => exact hr' hi
    | false =>
      obtain ⟨hj, hb⟩ := hp hi
      rw [h.usePrefetched ha hb hj, hT] at huse
      cases huse

end

include ha in
/-- A fetch goes on until the instruction has come in. -/
theorem Fetching.step (h : Fetching code T s.memDoRinst s) (hc : Answers code s i) (hr' : s.memDoRinst = true → q = true)
    (hj' : (s.step true i).jumps = false) :
    (s.memDone true i = false ∧ Fetching code T q (s.step true i)) ∨ Fetched code T s i := by
  cases h with
  | idle h hr hp => exact .inl ⟨h.done, h.starts ha hr hp hr' hj'⟩
  | first h hj =>
    cases hready : i.memReady with
    | false =>
      obtain ⟨hd, hf⟩ := h.wait ha hj hready hr'
      exact .inl ⟨hd, .first hf hj'⟩
    | true =>
      cases hi : s.memDoRinst with
      | false =>
        obtain ⟨hd, hf⟩ := h.prefetched ha hj hready hc hi
        exact .inl ⟨hd, .prefetched hf hj'⟩
      | true =>
        cases hT : T.getLsbD 1 with
        | false => exact .inr (h.fetched_low ha hj hready hc hi hT)
        | true =>
          cases hfull : isFull (s.memRdataLatched true i) with
          | false => exact .inr (h.fetched_high ha hj hready hc hT hfull)
          | true =>
            obtain ⟨hd, hf⟩ := h.goesOn ha hready hc hT hfull hr'
            exact .inl ⟨hd, .second hf hj'⟩
  | high h hj =>
    cases hi : s.memDoRinst with
    | false =>
      obtain ⟨hd, hf⟩ := h.wait ha hj hi
      exact .inl ⟨hd, .high hf hj'⟩
    | true =>
      cases hfull : isFull (s.memRdataLatched true i) with
      | false => exact .inr (h.fetched ha hj hi hfull)
      | true =>
        obtain ⟨hd, hf⟩ := h.goesOn ha hj hi hfull hr'
        exact .inl ⟨hd, .second hf hj'⟩
  | second h hj =>
    cases hready : i.memReady with
    | false =>
      obtain ⟨hd, hf⟩ := h.wait ha hj hready hr'
      exact .inl ⟨hd, .second hf hj'⟩
    | true => exact .inr (h.fetched ha hj hready hc)
  | prefetched h hj =>
    cases hi : s.memDoRinst with
    | false =>
      obtain ⟨hd, hf⟩ := h.wait ha hj hi
      exact .inl ⟨hd, .prefetched hf hj'⟩
    | true => exact .inr (h.fetched ha hj hi)

end Steps

end Core

end RiscvSoc.Cpu
