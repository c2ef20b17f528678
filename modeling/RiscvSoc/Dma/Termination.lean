import RiscvSoc.Dma.BurstRun
/-!
# How many blocks

Against a slave that answers, an operation ends, after as many bursts as LEN says. With
LEN = 0 the counter goes through all of its values.
-/

namespace RiscvSoc.Dma

open Sync Aes

theorem Phase.state_wrResp (ph : Phase) : ph.state = .wrResp ↔ ph = .wrResp := by
  cases ph <;> simp [Phase.state]

/-! ## Slaves that answer -/

/-- What the engine waits for comes. -/
structure Answers (r : Run DmaEngine.step) : Prop where
  arready (n : ℕ) (h : (r.st n).fsm.mArvalid = true) : ∃ m, n ≤ m ∧ (r.inp m).ram.arready = true
  rvalid (n : ℕ) (h : (r.st n).fsm.mRready = true) : ∃ m, n ≤ m ∧ (r.inp m).ram.rvalid = true
  awready (n : ℕ) (h : (r.st n).fsm.mAwvalid = true) : ∃ m, n ≤ m ∧ (r.inp m).ram.awready = true
  wready (n : ℕ) (h : (r.st n).fsm.mWvalid = true) : ∃ m, n ≤ m ∧ (r.inp m).ram.wready = true
  bvalid (n : ℕ) (h : (r.st n).fsm.mBready = true) : ∃ m, n ≤ m ∧ (r.inp m).ram.bvalid = true

def BurstEvent.isAr : BurstEvent → Bool
  | .ar .. => true
  | _ => false

def BurstEvent.isAw : BurstEvent → Bool
  | .aw .. => true
  | _ => false

theorem events_countP (j : DmaJob) (x : Feed) (n : ℕ) :
    (j.events x n).countP BurstEvent.isAr = n ∧ (j.events x n).countP BurstEvent.isAw = n := by
  induction n with
  | zero => exact ⟨rfl, rfl⟩
  | succ n ih =>
    have har : (j.blockEvents x n).countP BurstEvent.isAr = 1 := rfl
    have haw : (j.blockEvents x n).countP BurstEvent.isAw = 1 := rfl
    rw [j.events_succ, List.countP_append, List.countP_append, ih.1, ih.2, har, haw]
    exact ⟨rfl, rfl⟩

/-! ## Ranks -/

/-- The phases to come, in this block and in those after it. -/
def phasesLeft (blocks : ℕ) (p : ℕ × Phase) : ℕ := (blocks - p.1) * 38 + p.2.left

section Live

variable {r : Run DmaEngine.step} {t n : ℕ} {j : DmaJob} {x : Feed} {i : ℕ} {ph : Phase}

theorem next_left {e : DmaEngine} (h : InPhase j x i ph e) (hne : ph ≠ .wrResp) : ph.next.left < ph.left := by
  cases ph with
  | rdAddr out | wrAddr out => cases out <;> simp [Phase.next, Phase.left]
  | rdData n =>
    obtain ⟨-, hn, -⟩ := h
    simp only [Phase.next]
    split <;> simp only [Phase.left] <;> omega
  | aesWait n =>
    obtain ⟨-, hn, -⟩ := h
    simp only [Phase.next]
    split <;> simp only [Phase.left] <;> omega
  | wrData n =>
    obtain ⟨-, hn, -⟩ := h
    simp only [Phase.next]
    split <;> simp only [Phase.left] <;> omega
  | aesGo | aesDone => simp [Phase.next, Phase.left]
  | wrResp => exact absurd rfl hne

theorem phase_event (hans : Answers r) (h : InPhase j x i ph (r.st n)) : ∃ m, n ≤ m ∧ ph.goes (r.inp m) = true := by
  have hst := (engineCtl r n).strobes
  cases ph with
  | rdAddr out =>
    cases out with
    | false => exact ⟨n, le_rfl, rfl⟩
    | true => exact hans.arready n h.2
  | rdData k => exact hans.rvalid n (hst.rready.2 h.1.state)
  | wrAddr out =>
    cases out with
    | false => exact ⟨n, le_rfl, rfl⟩
    | true => exact hans.awready n h.2.1
  | wrData k => exact hans.wready n (hst.wvalid.2 h.1.state)
  | wrResp => exact hans.bvalid n (hst.bready.2 h.state)
  | aesGo | aesWait | aesDone => exact ⟨n, le_rfl, rfl⟩

/-- An edge of a started operation: it waits, goes on, or is over. -/
theorem InOp.edge (hcomp : Compliant r) (hd : Begins x.data (opData r t (n + 1)))
    (hk : Begins x.key (opKeys r t (n + 1))) (h : InOp j x (opLog r t n) (opKeys r t n) i ph (r.st (t + 1 + n))) :
    (InOp j x (opLog r t (n + 1)) (opKeys r t (n + 1)) i ph (r.st (t + 1 + (n + 1))) ∧
        ph.goes (r.inp (t + 1 + n)) = false) ∨
      (∃ q, phasesLeft j.blocks q < phasesLeft j.blocks (i, ph) ∧
        InOp j x (opLog r t (n + 1)) (opKeys r t (n + 1)) q.1 q.2 (r.st (t + 1 + (n + 1)))) ∨
      (r.st (t + 1 + (n + 1))).fsm.state = .done := by
  have hi := h.lt
  -- B ends a block, and with it the rank falls over the phases of the next
  by_cases hne : ph = .wrResp
  · subst hne
    cases hb : (r.inp (t + 1 + n)).ram.bvalid with
    | false => exact .inl ⟨h.waits hb, hb⟩
    | true =>
      rcases Nat.lt_or_eq_of_le hi with hlt | hlast
      · refine .inr (.inl ⟨(i + 1, .rdAddr false), ?_, h.nextBlock hlt hb⟩)
        simp only [phasesLeft, Phase.left, Bool.toNat_false]
        omega
      · exact .inr (.inr (wrResp_last hlast h.phase hb))
  · have hnext := h.step hcomp hd hk hne
    cases hg : ph.goes (r.inp (t + 1 + n)) with
    | false =>
      rw [Phase.after, hg] at hnext
      exact .inl ⟨hnext, rfl⟩
    | true =>
      rw [Phase.after, hg] at hnext
      exact .inr (.inl ⟨(i, ph.next), Nat.add_lt_add_left (next_left h.phase hne) _, hnext⟩)

end Live

section Operation

variable {r : Run DmaEngine.step} {t : ℕ} {x : Feed}

/-- In cycle `n` the operation of cycle `t` is in phase `q.2` of block `q.1`. -/
def OpAt (r : Run DmaEngine.step) (t : ℕ) (x : Feed) (q : ℕ × Phase) (n : ℕ) : Prop :=
  ∃ m, n = t + 1 + m ∧ EngineBusyTo r t n ∧ InOp (jobAt r t) x (opLog r t m) (opKeys r t m) q.1 q.2 (r.st n)

/-- In cycle `n` the operation of cycle `t` is past its last response. -/
def OpDone (r : Run DmaEngine.step) (t n : ℕ) : Prop := EngineBusyTo r t n ∧ (r.st n).fsm.state = .done

theorem EngineBusyTo.succ {n : ℕ} (h : EngineBusyTo r t n) (hs : (r.st (n + 1)).fsm.state ≠ .idle) :
    EngineBusyTo r t (n + 1) := by
  intro m h1 h2
  rcases Nat.lt_or_eq_of_le h2 with hlt | rfl
  · exact h m h1 (by omega)
  · exact (engineCtl r _).strobes.busy.2 hs

theorem busyTo_start (hstart : (r.st t).doStart (r.inp t).cpu = true) : EngineBusyTo r t (t + 1) := by
  intro m h1 h2
  obtain ⟨-, -, hf⟩ := start_fsm (engineCtl r t) hstart
  obtain rfl : m = t + 1 := by omega
  rw [Run.st_succ, hf]

theorem opAt_first (hstart : (r.st t).doStart (r.inp t).cpu = true) : OpAt r t x (0, .rdAddr false) (t + 1) :=
  ⟨0, rfl, busyTo_start hstart, (jobAt r t).blocks_pos, engine_start (engineCtl r t) hstart, rfl, rfl⟩

theorem opAt_edge (hcomp : Compliant r) (hd : ∀ m, Begins x.data (opData r t m)) (hk : ∀ m, Begins x.key (opKeys r t m))
    (q : ℕ × Phase) (n : ℕ) (h : OpAt r t x q n) :
    (OpAt r t x q (n + 1) ∧ ¬ q.2.goes (r.inp n) = true) ∨
      (∃ q', phasesLeft (jobAt r t).blocks q' < phasesLeft (jobAt r t).blocks q ∧ OpAt r t x q' (n + 1)) ∨
      OpDone r t (n + 1) := by
  obtain ⟨m, rfl, hb, h⟩ := h
  have hat {q : ℕ × Phase}
      (h : InOp (jobAt r t) x (opLog r t (m + 1)) (opKeys r t (m + 1)) q.1 q.2 (r.st (t + 1 + (m + 1)))) :
      OpAt r t x q (t + 1 + m + 1) :=
    ⟨m + 1, rfl, hb.succ (by rw [Nat.add_assoc, h.phase.state_eq]; exact (Phase.state_busy _).1), h⟩
  rcases h.edge hcomp (hd _) (hk _) with ⟨h, hg⟩ | ⟨q', hq, h⟩ | hs
  · exact .inl ⟨hat h, by simp [hg]⟩
  · exact .inr (.inl ⟨q', hq, hat h⟩)
  · exact .inr (.inr ⟨hb.succ (by rw [Nat.add_assoc, hs]; simp), hs⟩)

theorem opAt_event (hans : Answers r) (q : ℕ × Phase) (n : ℕ) (h : OpAt r t x q n) :
    ∃ b, n ≤ b ∧ q.2.goes (r.inp b) = true := by
  obtain ⟨m, rfl, -, h⟩ := h
  exact phase_event hans h.phase

/-- Against a slave that answers, an operation comes to its end. -/
theorem op_ends (hcomp : Compliant r) (hans : Answers r) (hstart : (r.st t).doStart (r.inp t).cpu = true) :
    ∃ n, OpDone r t (t + 1 + n) := by
  obtain ⟨data, hd⟩ := exists_begins (l := opData r t) fun n => ⟨_, (opData_succ r t n).symm⟩
  obtain ⟨key, hk⟩ := exists_begins (l := opKeys r t) fun n => ⟨_, (opKeys_succ r t n).symm⟩
  obtain ⟨n, hn, hdone⟩ := leadsTo_of_rank (phasesLeft (jobAt r t).blocks) (Q := OpDone r t) (opAt_event hans)
    (opAt_edge (x := ⟨data, key⟩) hcomp hd hk) (opAt_first hstart)
  obtain ⟨m, rfl⟩ := Nat.exists_eq_add_of_le hn.le
  exact ⟨m, hdone⟩

/-! ## The counter -/

/-- While BUSY the counter stays, or goes down by one, the latter not from 1 and only
at the response of a block. -/
theorem blocksLeft_edge (e : DmaEngine) (inp : EngineIn) (h : e.fsm.state ≠ .idle) :
    (e.step true inp).fsm.blocksLeft = e.fsm.blocksLeft ∨
      ((e.step true inp).fsm.blocksLeft = e.fsm.blocksLeft - 1 ∧ e.fsm.blocksLeft ≠ 1 ∧ e.fsm.state = .wrResp ∧
        inp.ram.bvalid = true) := by
  simp only [DmaEngine.step, DmaEngine.fsmStep, DmaEngine.fsmCase]
  cases hs : e.fsm.state <;> simp <;> grind

/-- State `done` is entered from a counter of 1. -/
theorem blocksLeft_done (e : DmaEngine) (inp : EngineIn) (h : (e.step true inp).fsm.state = .done) :
    (e.step true inp).fsm.blocksLeft = 1 := by
  revert h
  simp only [DmaEngine.step, DmaEngine.fsmStep, DmaEngine.fsmCase]
  cases hs : e.fsm.state <;> simp <;> grind

theorem pred_toNat {b : Word32} (hb : 0 < b.toNat) (h1 : b ≠ 1) : (b - 1).toNat = b.toNat - 1 ∧ 0 < (b - 1).toNat := by
  have hsub : (b - 1).toNat + 1 = b.toNat := Counters.toNat_pred fun h0 => by simp [h0] at hb
  have hne : b.toNat ≠ 1 := fun h => h1 (BitVec.eq_of_toNat_eq h)
  omega

/-- A counter above 0 never passes 0 while BUSY. -/
theorem blocksLeft_range {a n : ℕ} (hpos : 0 < (r.st a).fsm.blocksLeft.toNat)
    (hb : ∀ m ≤ n, (r.st (a + m)).fsm.statusBusy = true) :
    0 < (r.st (a + n)).fsm.blocksLeft.toNat ∧
      (r.st (a + n)).fsm.blocksLeft.toNat ≤ (r.st a).fsm.blocksLeft.toNat ∧
      (r.st (a + n + 1)).fsm.blocksLeft.toNat ≤ (r.st (a + n)).fsm.blocksLeft.toNat := by
  -- the bounds are the invariant; that the edge does not go up follows from them
  suffices h : 0 < (r.st (a + n)).fsm.blocksLeft.toNat ∧
      (r.st (a + n)).fsm.blocksLeft.toNat ≤ (r.st a).fsm.blocksLeft.toNat by
    have hne := (engineCtl r _).strobes.busy.1 (hb n le_rfl)
    refine ⟨h.1, h.2, ?_⟩
    rcases blocksLeft_edge (r.st (a + n)) (r.inp (a + n)) hne with heq | ⟨heq, h1, -⟩
    · rw [Run.st_succ, heq]
    · rw [Run.st_succ, heq, (pred_toNat h.1 h1).1]
      omega
  induction n with
  | zero => exact ⟨hpos, le_rfl⟩
  | succ n ih =>
    obtain ⟨hpos, hle⟩ := ih fun m hm => hb m (by omega)
    have hne := (engineCtl r _).strobes.busy.1 (hb n (by omega))
    rw [← Nat.add_assoc, Run.st_succ]
    rcases blocksLeft_edge (r.st (a + n)) (r.inp (a + n)) hne with heq | ⟨heq, h1, -⟩
    · rw [heq]
      exact ⟨hpos, hle⟩
    · rw [heq]
      obtain ⟨hsub, hpos'⟩ := pred_toNat hpos h1
      exact ⟨hpos', by omega⟩

/-- START puts LEN into the counter. -/
theorem blocksLeft_start (hstart : (r.st t).doStart (r.inp t).cpu = true) :
    (r.st (t + 1)).fsm.blocksLeft = (r.st t).regs.lenReg := by
  obtain ⟨-, -, hf⟩ := start_fsm (engineCtl r t) hstart
  rw [Run.st_succ, hf]

/-- Up to cycle `t + 1 + m` the counter is 0. The response of the first block comes in
that cycle, and the counter wraps. -/
structure WrapsAt (r : Run DmaEngine.step) (t m : ℕ) : Prop where
  zero : ∀ p ≤ m, (r.st (t + 1 + p)).fsm.blocksLeft = 0
  resp : (r.st (t + 1 + m)).fsm.mBready = true ∧ (r.inp (t + 1 + m)).ram.bvalid = true
  ar : (opLog r t (m + 1)).countP BurstEvent.isAr = 1
  aw : (opLog r t (m + 1)).countP BurstEvent.isAw = 1
  wraps : (r.st (t + 1 + m + 1)).fsm.blocksLeft = 0xFFFFFFFF

/-- The response at which the counter goes from 0 is that of the first block. -/
theorem InOp.wraps {i : ℕ} {m : ℕ} {ph : Phase} (hlen : (r.st t).regs.lenReg = 0)
    (h : InOp (jobAt r t) x (opLog r t m) (opKeys r t m) i ph (r.st (t + 1 + m)))
    (hs : (r.st (t + 1 + m)).fsm.state = .wrResp) (h0 : (r.st (t + 1 + m)).fsm.blocksLeft = 0)
    (hb : (r.inp (t + 1 + m)).ram.bvalid = true) : opLog r t (m + 1) = (jobAt r t).events x 1 := by
  obtain rfl : ph = .wrResp := ph.state_wrResp.1 (h.phase.state_eq.symm.trans hs)
  have hi := h.lt
  have hleft := h.phase.blocksLeft
  have hj : (jobAt r t).len = 0 := hlen
  rw [h0, hj] at hleft
  rw [DmaJob.blocks, if_pos hj] at hi
  obtain rfl : i = 0 := by
    have h := congrArg BitVec.toNat (sub_eq_zero.1 hleft.symm)
    rw [BitVec.toNat_ofNat, Nat.mod_eq_of_lt hi] at h
    exact h.symm
  exact h.log_b hb

/-- The cycle in which the counter of an operation with LEN = 0 wraps. -/
theorem blocksLeft_wraps (hcomp : Compliant r) (hstart : (r.st t).doStart (r.inp t).cpu = true)
    (hlen : (r.st t).regs.lenReg = 0) {n : ℕ} (hdone : OpDone r t (t + 1 + n)) : ∃ m < n, WrapsAt r t m := by
  obtain ⟨hb, hs⟩ := hdone
  -- the counter is 0 at first and 1 at the end, so it leaves 0 at an edge
  have hfirst : (r.st (t + 1 + 0)).fsm.blocksLeft = 0 := (blocksLeft_start hstart).trans hlen
  have hend : (r.st (t + 1 + n)).fsm.blocksLeft = 1 := by
    rw [Nat.add_right_comm, Run.st_succ] at hs ⊢
    exact blocksLeft_done _ _ hs
  obtain ⟨m, hmn, hzero, hleaves⟩ : ∃ m < n, (∀ p ≤ m, (r.st (t + 1 + p)).fsm.blocksLeft = 0) ∧ _ :=
    exists_leaves hfirst (by rw [hend]; decide)
  have hbm : EngineBusyTo r t (t + 1 + m) := hb.le (by omega)
  have hne := (engineCtl r _).strobes.busy.1 (hbm (t + 1 + m) (by omega) le_rfl)
  rw [← Nat.add_assoc, Run.st_succ] at hleaves
  refine ⟨m, hmn, ?_⟩
  rcases blocksLeft_edge (r.st (t + 1 + m)) (r.inp (t + 1 + m)) hne with hstays | ⟨hpred, -, hresp, hbv⟩
  · exact absurd (hstays.trans (hzero m le_rfl)) hleaves
  · cases tracked (x := ⟨_, _⟩) hcomp hstart hbm (begins_getD (opData r t m) 0) (begins_getD (opKeys r t m) 0) with
    | done hs => simp [hs] at hresp
    | block h =>
      have hlog := h.wraps hlen hresp (hzero m le_rfl) hbv
      exact {
        zero := hzero
        resp := ⟨(engineCtl r _).strobes.bready.2 hresp, hbv⟩
        ar := by rw [hlog, (events_countP _ _ _).1]
        aw := by rw [hlog, (events_countP _ _ _).2]
        wraps := by rw [Run.st_succ, hpred, hzero m le_rfl]; rfl }

end Operation

end RiscvSoc.Dma
