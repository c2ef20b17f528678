import RiscvSoc.Dma.Phases
/-!
# The bursts of an operation, against any slave

The engine alone, with a slave that stalls as it likes. The handshakes since START are
the beginning of the sequence that the registers, the words read and the keys fix, and
they are all of it when BUSY falls.
-/

namespace RiscvSoc.Dma

open Sync Aes

/-! ## What is seen of an operation -/

def BurstEvent.readData : BurstEvent → Option Word32
  | .r data _ => some data
  | _ => none

/-- The length of the read burst that is being answered, and the beats it has had. -/
def readPos : BitVec 8 × ℕ → BurstEvent → BitVec 8 × ℕ
  | _, .ar _ len _ _ => (len, 0)
  | (len, n), .r _ _ => (len, n + 1)
  | p, _ => p

/-- The key, where the chain is started. -/
def DmaEngine.keyTaken (e : DmaEngine) (_ : EngineIn) : List Block :=
  if e.fsm.chainStart then [e.regs.keyReg] else []

section Logs

variable (r : Run DmaEngine.step) (t n : ℕ)

/-- The handshakes of the `n` cycles after a START in cycle `t`. -/
def opLog : List BurstEvent := r.span DmaEngine.busEvents (t + 1) n

def opData : List Word32 := (opLog r t n).filterMap BurstEvent.readData

def opKeys : List Block := r.span DmaEngine.keyTaken (t + 1) n

/-- BUSY reads 1 in the cycles `t + 1 .. n`. -/
def EngineBusyTo : Prop := ∀ m, t < m → m ≤ n → (r.st m).fsm.statusBusy = true

/-- The last beat of a read burst, and no other, comes with RLAST. It is all that the
engine needs of AXI4. -/
def Compliant : Prop :=
  ∀ n, (r.inp n).ram.rvalid = true → (r.st n).fsm.mRready = true →
    ((r.inp n).ram.rlast = true ↔
      ((r.span DmaEngine.busEvents 0 n).foldl readPos (0, 0)).2 =
        ((r.span DmaEngine.busEvents 0 n).foldl readPos (0, 0)).1.toNat)

/-- The job that the START of cycle `t` asks for. -/
def jobAt : DmaJob := (r.st t).job (r.inp t).cpu

theorem opLog_succ : opLog r t (n + 1) = opLog r t n ++ (r.st (t + 1 + n)).busEvents (r.inp (t + 1 + n)) :=
  r.span_succ _ _ _

theorem opData_succ :
    opData r t (n + 1) =
      opData r t n ++ ((r.st (t + 1 + n)).busEvents (r.inp (t + 1 + n))).filterMap BurstEvent.readData := by
  rw [opData, opLog_succ, List.filterMap_append]
  rfl

theorem opKeys_succ : opKeys r t (n + 1) = opKeys r t n ++ (r.st (t + 1 + n)).keyTaken (r.inp (t + 1 + n)) :=
  r.span_succ _ _ _

end Logs

/-! ## Counting in the ideal sequence -/

section Ideal

variable (j : DmaJob) (x : Feed) (i : ℕ)

theorem events_readData : ((j.events x i).filterMap BurstEvent.readData).length = 4 * i := by
  induction i with
  | zero => rfl
  | succ i ih =>
    have h4 : ((j.blockEvents x i).filterMap BurstEvent.readData).length = 4 := rfl
    rw [j.events_succ, List.filterMap_append, List.length_append, ih, h4]
    omega

/-- In phase `rdData n`, word `n` of the block is next, and `n` beats of its burst are past. -/
theorem rdData_count {n : ℕ} (hn : n ≤ 3) :
    ((j.events x i ++ (j.blockEvents x i).take (Phase.rdData n).past).filterMap BurstEvent.readData).length =
      4 * i + n := by
  rw [List.filterMap_append, List.length_append, events_readData]
  obtain rfl | rfl | rfl | rfl : n = 0 ∨ n = 1 ∨ n = 2 ∨ n = 3 := by omega
  all_goals rfl

theorem rdData_pos {n : ℕ} (hn : n ≤ 3) (p : BitVec 8 × ℕ) :
    (j.events x i ++ (j.blockEvents x i).take (Phase.rdData n).past).foldl readPos p = (3, n) := by
  rw [List.foldl_append]
  obtain rfl | rfl | rfl | rfl : n = 0 ∨ n = 1 ∨ n = 2 ∨ n = 3 := by omega
  all_goals rfl

end Ideal

/-! ## One edge of an operation -/

/-- In phase `ph` of block `i`, with `log` behind it and `keys` taken. -/
structure InOp (j : DmaJob) (x : Feed) (log : List BurstEvent) (keys : List Block) (i : ℕ) (ph : Phase)
    (e : DmaEngine) : Prop where
  lt : i < j.blocks
  phase : InPhase j x i ph e
  log : log = j.events x i ++ (j.blockEvents x i).take ph.past
  keys : keys.length = i + ph.keyed.toNat

theorem Phase.state_aesGo (ph : Phase) : ph.state = .aesGo ↔ ph = .aesGo := by
  cases ph <;> simp [Phase.state]

theorem Phase.state_busy (ph : Phase) : ph.state ≠ .idle ∧ ph.state ≠ .done := by
  cases ph <;> simp [Phase.state]

theorem Phase.after_keyed (inp : EngineIn) (ph : Phase) :
    (ph.after inp).keyed.toNat = ph.keyed.toNat + if ph = .aesGo then 1 else 0 := by
  cases ph with
  | aesGo => rfl
  | rdAddr out | wrAddr out => cases out <;> simp only [Phase.after, Phase.next] <;> split <;> rfl
  | rdData n | wrData n => simp only [Phase.after, Phase.next]; split <;> [split; skip] <;> rfl
  | aesWait n => simp only [Phase.after, Phase.next]; split <;> [split; skip] <;> rfl
  | aesDone | wrResp => simp only [Phase.after, Phase.next]; split <;> rfl

section Runs

variable {r : Run DmaEngine.step} {t n : ℕ} {j : DmaJob} {x : Feed} {i : ℕ} {ph : Phase}

theorem InOp.feeds (hcomp : Compliant r) (hd : Begins x.data (opData r t (n + 1)))
    (hk : Begins x.key (opKeys r t (n + 1))) (h : InOp j x (opLog r t n) (opKeys r t n) i ph (r.st (t + 1 + n))) :
    Feeds x i ph (r.st (t + 1 + n)) (r.inp (t + 1 + n)) := by
  have hc := engineCtl r (t + 1 + n)
  obtain ⟨-, hph, hlog, hkeys⟩ := h
  constructor
  · rintro m rfl hv
    obtain ⟨hb, hm, -⟩ := hph
    have hev := (r.st (t + 1 + n)).busEvents_eq (r.inp (t + 1 + n)) hc.strobes
    simp only [hb.state, whenFire, hv, Bool.and_self, if_true] at hev
    constructor
    -- the word: as many have come as the log has R events
    · rw [opData_succ, hev] at hd
      have hnext := Begins.next (x := (r.inp (t + 1 + n)).ram.rdata) hd
      rw [opData, hlog, rdData_count j x i hm] at hnext
      exact hnext.symm
    -- RLAST: the monitor of the read channel is at beat `m`
    · have hpos : (r.span DmaEngine.busEvents 0 (t + 1 + n)).foldl readPos (0, 0) = (3, m) := by
        rw [r.span_append, List.foldl_append, Nat.zero_add, ← rdData_pos j x i hm, ← hlog]
        rfl
      rw [hcomp _ hv (hc.strobes.rready.2 hb.state), hpos]
      rfl
  · rintro rfl
    have hstart := hc.strobes.start.2 hph.1.state
    rw [opKeys_succ, DmaEngine.keyTaken, hstart, if_pos rfl] at hk
    have hnext := hk.next
    rw [hkeys] at hnext
    exact hnext.symm

theorem opKeys_length (h : InPhase j x i ph (r.st (t + 1 + n))) :
    (opKeys r t (n + 1)).length = (opKeys r t n).length + if ph = .aesGo then 1 else 0 := by
  have hstart : (r.st (t + 1 + n)).fsm.chainStart = decide (ph = .aesGo) := by
    rw [Bool.eq_iff_iff, (engineCtl r _).strobes.start, h.state_eq, ph.state_aesGo, decide_eq_true_iff]
  rw [opKeys_succ, List.length_append, DmaEngine.keyTaken, hstart]
  by_cases hp : ph = .aesGo <;> simp [hp]

theorem InOp.step (hcomp : Compliant r) (hd : Begins x.data (opData r t (n + 1)))
    (hk : Begins x.key (opKeys r t (n + 1))) (hne : ph ≠ .wrResp)
    (h : InOp j x (opLog r t n) (opKeys r t n) i ph (r.st (t + 1 + n))) :
    InOp j x (opLog r t (n + 1)) (opKeys r t (n + 1)) i (ph.after (r.inp (t + 1 + n))) (r.st (t + 1 + (n + 1))) := by
  obtain ⟨hph, hlog⟩ := inPhase_moves (engineCtl r _) (payloads r _) (h.feeds hcomp hd hk) hne h.phase
  refine ⟨h.lt, hph, ?_, ?_⟩
  · rw [opLog_succ, h.log, List.append_assoc, hlog]
  · rw [opKeys_length h.phase, h.keys, Phase.after_keyed, Nat.add_assoc]

theorem InOp.waits (hb : (r.inp (t + 1 + n)).ram.bvalid = false)
    (h : InOp j x (opLog r t n) (opKeys r t n) i .wrResp (r.st (t + 1 + n))) :
    InOp j x (opLog r t (n + 1)) (opKeys r t (n + 1)) i .wrResp (r.st (t + 1 + (n + 1))) := by
  obtain ⟨hph, hev⟩ := wrResp_waits (engineCtl r _) h.phase hb
  refine ⟨h.lt, hph, ?_, ?_⟩
  · rw [opLog_succ, hev, List.append_nil, h.log]
  · rw [opKeys_length h.phase, h.keys]
    rfl

/-- The log at the response of block `i`. -/
theorem InOp.log_b (hb : (r.inp (t + 1 + n)).ram.bvalid = true)
    (h : InOp j x (opLog r t n) (opKeys r t n) i .wrResp (r.st (t + 1 + n))) :
    opLog r t (n + 1) = j.events x (i + 1) := by
  rw [opLog_succ, h.log, List.append_assoc, wrResp_b (engineCtl r _) h.phase hb, j.events_succ]

theorem InOp.nextBlock (hi : i + 1 < j.blocks) (hb : (r.inp (t + 1 + n)).ram.bvalid = true)
    (h : InOp j x (opLog r t n) (opKeys r t n) i .wrResp (r.st (t + 1 + n))) :
    InOp j x (opLog r t (n + 1)) (opKeys r t (n + 1)) (i + 1) (.rdAddr false) (r.st (t + 1 + (n + 1))) := by
  refine ⟨hi, wrResp_nextBlock (engineCtl r _) hi h.phase hb, ?_, ?_⟩
  · rw [h.log_b hb]
    exact (List.append_nil _).symm
  · rw [opKeys_length h.phase, h.keys]
    rfl

/-! ## The whole operation -/

/-- In a block, or past the last one. -/
inductive Tracked (j : DmaJob) (x : Feed) (log : List BurstEvent) (keys : List Block) (e : DmaEngine) : Prop
  | block {i : ℕ} {ph : Phase} (h : InOp j x log keys i ph e)
  | done (hs : e.fsm.state = .done) (hlog : log = j.events x j.blocks)

theorem InOp.tracked (hcomp : Compliant r) (hd : Begins x.data (opData r t (n + 1)))
    (hk : Begins x.key (opKeys r t (n + 1))) (h : InOp j x (opLog r t n) (opKeys r t n) i ph (r.st (t + 1 + n))) :
    Tracked j x (opLog r t (n + 1)) (opKeys r t (n + 1)) (r.st (t + 1 + (n + 1))) := by
  by_cases hne : ph = .wrResp
  · subst hne
    cases hb : (r.inp (t + 1 + n)).ram.bvalid with
    | false => exact .block (h.waits hb)
    | true =>
      rcases Nat.lt_or_eq_of_le h.lt with hi | hi
      · exact .block (h.nextBlock hi hb)
      · exact .done (wrResp_last hi h.phase hb) ((h.log_b hb).trans (by rw [← hi]))
  · exact .block (h.step hcomp hd hk hne)

/-- BUSY falls with the edge after the last response, which has no handshake. -/
theorem done_falls (hs : (r.st (t + 1 + n)).fsm.state = .done) :
    opLog r t (n + 1) = opLog r t n ∧ (r.st (t + 1 + (n + 1))).fsm.statusBusy = false := by
  have hev := (r.st (t + 1 + n)).busEvents_eq (r.inp (t + 1 + n)) (engineCtl r _).strobes
  simp only [hs] at hev
  constructor
  · rw [opLog_succ, hev, List.append_nil]
  · rw [← Nat.add_assoc, Run.st_succ]
    simp [DmaEngine.step, DmaEngine.fsmStep, DmaEngine.fsmCase, hs]

theorem Tracked.busy {log : List BurstEvent} {keys : List Block} {m : ℕ} (h : Tracked j x log keys (r.st m)) :
    (r.st m).fsm.statusBusy = true := by
  refine (engineCtl r m).strobes.busy.2 ?_
  cases h with
  | block h =>
    rw [h.phase.state_eq]
    exact (Phase.state_busy _).1
  | done hs => simp [hs]

theorem EngineBusyTo.le {n m : ℕ} (h : EngineBusyTo r t n) (hm : m ≤ n) : EngineBusyTo r t m :=
  fun k h1 h2 => h k h1 (h2.trans hm)

theorem tracked (hcomp : Compliant r) (hstart : (r.st t).doStart (r.inp t).cpu = true)
    (hb : EngineBusyTo r t (t + 1 + n)) (hd : Begins x.data (opData r t n)) (hk : Begins x.key (opKeys r t n)) :
    Tracked (jobAt r t) x (opLog r t n) (opKeys r t n) (r.st (t + 1 + n)) := by
  induction n with
  | zero =>
    have hfirst : InOp (jobAt r t) x (opLog r t 0) (opKeys r t 0) 0 (.rdAddr false) (r.st (t + 1 + 0)) :=
      ⟨(jobAt r t).blocks_pos, engine_start (engineCtl r t) hstart, rfl, rfl⟩
    exact .block hfirst
  | succ n ih =>
    have hd' := hd
    have hk' := hk
    rw [opData_succ] at hd'
    rw [opKeys_succ] at hk'
    cases ih (hb.le (by omega)) hd'.of_append hk'.of_append with
    | block h => exact h.tracked hcomp hd hk
    | done hs => simpa [(done_falls hs).2] using hb _ (by omega) le_rfl

theorem InOp.log_prefix {log : List BurstEvent} {keys : List Block} {e : DmaEngine} (h : InOp j x log keys i ph e) :
    log <+: j.events x j.blocks := by
  rw [h.log]
  refine List.IsPrefix.trans ?_ (j.events_prefix x h.lt)
  rw [j.events_succ]
  exact List.prefix_append_right_inj _ |>.2 (List.take_prefix _ _)

/-- The log of an operation is the beginning of the ideal one, and all of it at the end. -/
theorem opLog_ideal (hcomp : Compliant r) (hstart : (r.st t).doStart (r.inp t).cpu = true)
    (hb : EngineBusyTo r t (t + n)) (hd : Begins x.data (opData r t n)) (hk : Begins x.key (opKeys r t n)) :
    opLog r t n <+: (jobAt r t).events x (jobAt r t).blocks ∧
      ((r.st (t + 1 + n)).fsm.statusBusy = false → opLog r t n = (jobAt r t).events x (jobAt r t).blocks) := by
  cases n with
  | zero =>
    have hfirst := tracked (n := 0) (x := x) hcomp hstart (fun m h1 h2 => ?_) hd hk
    · exact ⟨List.nil_prefix, fun hidle => by simpa [hidle] using hfirst.busy⟩
    · obtain ⟨-, -, hf⟩ := start_fsm (engineCtl r t) hstart
      obtain rfl : m = t + 1 := by omega
      rw [Run.st_succ, hf]
  | succ n =>
    have hd' := hd
    have hk' := hk
    rw [opData_succ] at hd'
    rw [opKeys_succ] at hk'
    cases tracked hcomp hstart (hb.le (by omega)) hd'.of_append hk'.of_append with
    | block h =>
      have hnext := h.tracked hcomp hd hk
      refine ⟨?_, fun hidle => by simpa [hidle] using hnext.busy⟩
      cases hnext with
      | block h => exact h.log_prefix
      | done _ hlog => rw [hlog]
    | done hs hlog =>
      rw [(done_falls hs).1, hlog]
      exact ⟨List.prefix_rfl, fun _ => rfl⟩

end Runs

/-! ## Two slaves -/

section TwoRuns

variable (r : Run DmaEngine.step) (t : ℕ)

/-- Each block of the operation goes into the chain with the key of START. -/
def KeyKept : Prop :=
  ∀ n, t < n → EngineBusyTo r t n → (r.st n).fsm.chainStart = true → (r.st n).regs.keyReg = (r.st t).regs.keyReg

/-- What a slave returns and the registers at START fix. -/
def idealLog (j : DmaJob) (data : ℕ → Word32) : List BurstEvent := j.events ⟨data, fun _ => j.key⟩ j.blocks

variable {r t}

theorem KeyKept.begins {n : ℕ} (h : KeyKept r t) (hb : EngineBusyTo r t (t + n)) :
    Begins (fun _ => (jobAt r t).key) (opKeys r t n) := by
  have hmem : ∀ key ∈ opKeys r t n, key = (r.st t).regs.keyReg := by
    intro key hkey
    obtain ⟨m, hm, hkey⟩ := List.mem_flatMap.1 hkey
    rw [List.mem_range] at hm
    cases hs : (r.st (t + 1 + m)).fsm.chainStart with
    | false => simp [DmaEngine.keyTaken, hs] at hkey
    | true =>
      obtain rfl : key = _ := by simpa [DmaEngine.keyTaken, hs] using hkey
      exact h _ (by omega) (hb.le (by omega)) hs
  exact fun m key hkey => (hmem key (List.mem_of_getElem? hkey)).symm

/-- An engine that is BUSY has been started. -/
theorem busy_started {n : ℕ} (h : (r.st n).fsm.statusBusy = true) :
    ∃ t < n, (r.st t).doStart (r.inp t).cpu = true ∧ EngineBusyTo r t n := by
  induction n with
  | zero => simp [Run.st_zero, DmaEngine.step, DmaEngine.fsmStep] at h
  | succ n ih =>
    -- BUSY before this edge, or it is the edge of the START
    cases hn : (r.st n).fsm.statusBusy with
    | true =>
      obtain ⟨t, ht, hstart, hb⟩ := ih hn
      refine ⟨t, by omega, hstart, fun m h1 h2 => ?_⟩
      rcases Nat.lt_or_eq_of_le h2 with hlt | rfl
      · exact hb m h1 (by omega)
      · exact h
    | false =>
      have hidle : (r.st n).fsm.state = .idle := by simpa [hn] using (engineCtl r n).strobes.busy
      refine ⟨n, by omega, ?_, fun m h1 h2 => ?_⟩
      · by_contra hstart
        simp [Run.st_succ, DmaEngine.step, DmaEngine.fsmStep, DmaEngine.fsmCase, hidle, hn, hstart] at h
      · obtain rfl : m = n + 1 := by omega
        exact h

theorem busEvents_busy {n : ℕ} (h : (r.st n).busEvents (r.inp n) ≠ []) : (r.st n).fsm.statusBusy = true := by
  have hc := engineCtl r n
  refine hc.strobes.busy.2 fun hs => h ?_
  rw [DmaEngine.busEvents_eq _ _ hc.strobes, hs]

theorem opLog_idealLog {n : ℕ} {data : ℕ → Word32} (hcomp : Compliant r) (hstart : (r.st t).doStart (r.inp t).cpu = true)
    (hkey : KeyKept r t) (hb : EngineBusyTo r t (t + n)) (hd : Begins data (opData r t n)) :
    opLog r t n <+: idealLog (jobAt r t) data ∧
      ((r.st (t + 1 + n)).fsm.statusBusy = false → opLog r t n = idealLog (jobAt r t) data) :=
  opLog_ideal (x := ⟨data, fun _ => (jobAt r t).key⟩) hcomp hstart hb hd (hkey.begins hb)

end TwoRuns

end RiscvSoc.Dma
