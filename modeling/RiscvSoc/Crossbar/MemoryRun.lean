import RiscvSoc.Crossbar.Memory
/-!
# Transactions on the SRAM

The write side of the memory log is the write log of the crossbar with the two
beats at the SRAM read as one commit. The read side is followed by itself, since
the sampled word is in no handshake of its cycle.
-/

namespace RiscvSoc.Crossbar

open Sync

variable {rest : Slave → PulseSlave}

/-! ## Writes -/

/-- The memory events in a write log; `a` is the last address that a slave took. -/
def toMem : Word32 → List (ℕ × WEvent) → List (ℕ × MemEvent)
  | _, [] => []
  | a, (t, .aw m x) :: l => (t, .aw m x) :: toMem a l
  | a, (t, .w m d sb) :: l => (t, .w m d sb) :: toMem a l
  | _, (_, .slaveAw _ x) :: l => toMem x l
  | a, (t, .slaveW p d sb) :: l => if p = .ram then (t, .commit a d sb) :: toMem a l else toMem a l
  | a, (_, .slaveB _ _) :: l => toMem a l
  | a, (t, .b m resp) :: l => (t, .b m resp) :: toMem a l

theorem toMem_append (a : Word32) (l : List (ℕ × WEvent)) :
    ∃ a', ∀ l', toMem a (l ++ l') = toMem a l ++ toMem a' l' := by
  induction l generalizing a with
  | nil => exact ⟨a, fun _ => rfl⟩
  | cons e l ih =>
    obtain ⟨t, e⟩ := e
    cases e with
    | slaveAw p x => exact ih x
    | slaveB => exact ih a
    | aw m x | w m d sb | b m resp =>
      obtain ⟨a', ha⟩ := ih a
      exact ⟨a', fun l' => by simp [toMem, ha]⟩
    | slaveW p d sb =>
      obtain ⟨a', ha⟩ := ih a
      refine ⟨a', fun l' => ?_⟩
      by_cases hp : p = .ram <;> simp [toMem, hp, ha]

theorem UpBeats.toMem {m : Master} {a d : Word32} {sb : BitVec 4} {up : List (ℕ × WEvent)} (h : UpBeats m a d sb up)
    (x : Word32) : ∃ up', MemBeats m a d sb up' ∧ ∀ l, Crossbar.toMem x (up ++ l) = up' ++ Crossbar.toMem x l := by
  cases h with
  | awFirst t t' => exact ⟨_, ⟨t, t', .inl rfl⟩, fun _ => rfl⟩
  | wFirst t t' => exact ⟨_, ⟨t, t', .inr rfl⟩, fun _ => rfl⟩

theorem PulseWriteTxn.toMem {l : List (ℕ × WEvent)} (h : PulseWriteTxn l) (x : Word32) :
    MemWriteTxn (Crossbar.toMem x l) := by
  cases h with
  | @slave m a d sb p up c hup _ hp resp t _ =>
    obtain ⟨up', hup', heq⟩ := hup.toMem x
    rw [heq]
    by_cases hram : p = .ram
    · subst hram
      exact .ram hup' hp (c + 1) t resp
    · simpa [Crossbar.toMem, hram] using MemWriteTxn.other hup' (by simp [hp, hram]) t resp
  | err hup _ ha t | csr hup _ ha t =>
    obtain ⟨up', hup', heq⟩ := hup.toMem x
    rw [heq]
    exact .other hup' (by simp [ha]) t _

section Cycle

variable {s : Fabric (withSram rest)} (i : FabricIn (withSram rest)) (n : ℕ)

theorem filter_ite {α : Type*} (f : α → Bool) (c : Prop) [Decidable c] (x : α) :
    (if c then [x] else []).filter f = if f x then (if c then [x] else []) else [] := by
  split <;> by_cases hx : f x <;> simp [hx]

/-- The write side of a cycle's memory events. -/
theorem memEvents_onWrite (s : Fabric (withSram rest)) :
    (s.memEvents i).filter MemEvent.onWrite =
      masters.flatMap (fun m =>
        whenFire (i.up m).awvalid (s.xbar.rsp (s.xbarIn i) m).awready (.aw m (i.up m).awaddr) ++
        whenFire (i.up m).wvalid (s.xbar.rsp (s.xbarIn i) m).wready (.w m (i.up m).wdata (i.up m).wstrb)) ++
      (if (s.xbar.req .ram).doWrite then
        [.commit (s.xbar.req .ram).awaddr (s.xbar.req .ram).wdata (s.xbar.req .ram).wstrb] else []) ++
      masters.flatMap (fun m =>
        whenFire (s.xbar.rsp (s.xbarIn i) m).bvalid (i.up m).bready (.b m (s.xbar.rsp (s.xbarIn i) m).bresp)) := by
  simp only [Fabric.memEvents, masters, List.flatMap_cons, List.flatMap_nil, List.filter_append, whenFire,
    filter_ite, MemEvent.onWrite, if_true, Bool.false_eq_true, if_false, List.append_nil]

theorem toMem_wEvents {cur : List (ℕ × WEvent)} (h : PulsePhase s n cur) (x : Word32) :
    toMem x ((s.wEvents i).map (n, ·)) = ((s.memEvents i).filter MemEvent.onWrite).map (n, ·) := by
  rw [memEvents_onWrite]
  cases h with
  | idle h hp =>
    have hb : s.xbar.w.sBvalid = false := by
      cases hp with
      | closed _ _ _ hb | gotAw _ _ _ hb | gotW _ _ _ hb => exact hb
      | issueSlave h' | issueNone h' | wait h' | resp h' => simp [h] at h'
    rw [Fabric.wEvents, wEvents_idle h hb]
    simp only [masters, AxiLiteXbar.rsp, AxiLiteXbar.req, LiteReq.doWrite, h, hb, whenFire, WritePath.awFire,
      WritePath.wFire, WritePath.cur, Fabric.xbarIn_up]
    rcases master_cases (granted (s.xbar.w.wGrantEff (s.xbarIn i))) with hg | hg <;> simp [hg] <;>
      split <;> split <;> simp [toMem]
  | issue h hb hl hi =>
    cases hp : s.xbar.w.wSel with
    | dev p =>
      obtain ⟨hra, hrw, -⟩ := s.ready p
      rw [Fabric.wEvents, wEvents_issue h hb hp]
      simp only [masters, AxiLiteXbar.rsp, AxiLiteXbar.req, LiteReq.doWrite, h, hb, whenFire, hi, hp,
        WritePath.slaveAwready, WritePath.slaveWready, WritePath.curAwready, WritePath.curWready,
        Fabric.xbarIn_down, hra, hrw]
      by_cases hram : p = .ram <;> simp [toMem, hram]
    | xbarCsr | err =>
      rw [Fabric.wEvents, wEvents_issueNone h hb (by simp [WritePath.noSlave, hp])]
      simp [masters, AxiLiteXbar.rsp, AxiLiteXbar.req, LiteReq.doWrite, h, hb, whenFire, hp, toMem,
        WritePath.curAwready, WritePath.curWready]
  | wait h hb _ hp hv =>
    rw [Fabric.wEvents, wEvents_wait h hb hp]
    simp only [masters, AxiLiteXbar.rsp, AxiLiteXbar.req, LiteReq.doWrite, h, hb, whenFire]
    split <;> simp [toMem, WritePath.curAwready, WritePath.curWready, h]
  | resp h =>
    rw [Fabric.wEvents, wEvents_resp h]
    simp only [masters, AxiLiteXbar.rsp, AxiLiteXbar.req, LiteReq.doWrite, h, whenFire, WritePath.curBready,
      WritePath.curAwready, WritePath.curWready, Fabric.xbarIn_up]
    rcases master_cases (granted s.xbar.w.wGrant) with hg | hg <;> simp [hg] <;> split <;> simp [toMem]

end Cycle

/-- The write side of the memory log is whole writes and the first part of one more. -/
theorem memLog_writes (r : Run (@Fabric.step (withSram rest))) (n : ℕ) :
    ∃ cur, Parses MemWriteTxn ((r.log Fabric.memEvents n).filter (·.2.onWrite)) cur ∧
      ∃ rest', MemWriteTxn (cur ++ rest') := by
  suffices h : ∃ cur, Parses MemWriteTxn ((r.log Fabric.memEvents n).filter (·.2.onWrite)) (toMem 0 cur) ∧
      PulsePhase (r.st n) n cur by
    obtain ⟨cur, hl, hp⟩ := h
    obtain ⟨more, ht⟩ := hp.exists_txn
    obtain ⟨a', ha⟩ := toMem_append 0 cur
    exact ⟨_, hl, toMem a' more, ha more ▸ ht.toMem 0⟩
  -- the parse of the crossbar's own write events, carried over by `toMem`
  induction n with
  | zero => exact ⟨[], .nil, .idle rfl (.closed rfl rfl rfl rfl)⟩
  | succ n ih =>
    obtain ⟨cur, hl, hp⟩ := ih
    obtain ⟨a', ha⟩ := toMem_append 0 cur
    have hcyc := toMem_wEvents (r.inp n) n hp a'
    have hnext : toMem 0 (cur ++ ((r.st n).wEvents (r.inp n)).map (n, ·)) =
        toMem 0 cur ++ (r.eventsAt Fabric.memEvents n).filter (·.2.onWrite) := by
      rw [ha, hcyc, Run.eventsAt, List.filter_map]
      rfl
    rw [Run.log_succ, List.filter_append]
    rcases hp.step (r.inp n) n with h | ⟨ht, h⟩
    · exact ⟨_, by rw [hnext]; exact hl.append _, h⟩
    · refine ⟨[], (hl.append _).close ?_, h⟩
      rw [← hnext]
      exact ht.toMem 0

/-! ## Reads -/

/-- `cur` is the read side of the open read; the sampled word is in the SRAM's
output register while the crossbar waits. -/
inductive MemReadPhase (s : Fabric (withSram rest)) : List (ℕ × MemEvent) → Prop
  | idle (h : s.xbar.r.rState = .idle) (hv : s.xbar.r.sRvalid = false) : MemReadPhase s []
  | issue (h : s.xbar.r.rState = .issue) (hv : s.xbar.r.sRvalid = false) (hi : s.xbar.r.rIssuedAr = false)
      (sel : s.xbar.r.rSel = decodeAddr s.xbar.r.rAddrLat) (t : ℕ) :
      MemReadPhase s [(t, .ar (granted s.xbar.r.rGrant) s.xbar.r.rAddrLat)]
  | waitRam (h : s.xbar.r.rState = .wait) (hv : s.xbar.r.sRvalid = false)
      (sel : s.xbar.r.rSel = decodeAddr s.xbar.r.rAddrLat) (hp : s.xbar.r.rSel = .dev .ram) (t t' : ℕ) :
      MemReadPhase s
        [(t, .ar (granted s.xbar.r.rGrant) s.xbar.r.rAddrLat), (t', .sample s.xbar.r.rAddrLat s.sram.port.sRdata)]
  | waitOther {p} (h : s.xbar.r.rState = .wait) (hv : s.xbar.r.sRvalid = false)
      (sel : s.xbar.r.rSel = decodeAddr s.xbar.r.rAddrLat) (hp : s.xbar.r.rSel = .dev p) (hram : p ≠ .ram) (t : ℕ) :
      MemReadPhase s [(t, .ar (granted s.xbar.r.rGrant) s.xbar.r.rAddrLat)]
  | resp {l} (h : s.xbar.r.rState = .resp)
      (txn : ∀ t, MemReadTxn (l ++ [(t, .r (granted s.xbar.r.rGrant) s.xbar.finalR.1 s.xbar.finalR.2)])) :
      MemReadPhase s l

section ReadEdge

variable {s : Fabric (withSram rest)} (i : FabricIn (withSram rest)) (n : ℕ)

/-- The read side of a cycle's memory events. -/
theorem memEvents_onRead (s : Fabric (withSram rest)) :
    (s.memEvents i).filter MemEvent.onRead =
      masters.flatMap (fun m =>
        whenFire (i.up m).arvalid (s.xbar.rsp (s.xbarIn i) m).arready (.ar m (i.up m).araddr)) ++
      (if (s.xbar.req .ram).arvalid then
        [.sample (s.xbar.req .ram).araddr (s.sram.mem (Sram.wordIdx (s.xbar.req .ram).araddr))] else []) ++
      masters.flatMap (fun m => whenFire (s.xbar.rsp (s.xbarIn i) m).rvalid (i.up m).rready
        (.r m (s.xbar.rsp (s.xbarIn i) m).rdata (s.xbar.rsp (s.xbarIn i) m).rresp)) := by
  simp only [Fabric.memEvents, masters, List.flatMap_cons, List.flatMap_nil, List.filter_append, whenFire,
    filter_ite, MemEvent.onRead, MemEvent.onWrite, Bool.not_true, Bool.not_false, if_true, Bool.false_eq_true, if_false,
    List.append_nil, List.nil_append]

theorem memReads_idle (h : s.xbar.r.rState = .idle) (hv : s.xbar.r.sRvalid = false) :
    (s.memEvents i).filter MemEvent.onRead =
      if (s.xbar.r.cur (s.xbarIn i)).arvalid then
        [.ar (granted (s.xbar.r.rGrantEff (s.xbarIn i))) (s.xbar.r.cur (s.xbarIn i)).araddr] else [] := by
  rw [memEvents_onRead]
  simp only [masters, AxiLiteXbar.rsp, AxiLiteXbar.req, h, hv, whenFire, ReadPath.cur, Fabric.xbarIn_up]
  rcases master_cases (granted (s.xbar.r.rGrantEff (s.xbarIn i))) with hg | hg <;> simp [hg]

theorem memReads_issue (h : s.xbar.r.rState = .issue) (hv : s.xbar.r.sRvalid = false)
    (hi : s.xbar.r.rIssuedAr = false) :
    (s.memEvents i).filter MemEvent.onRead =
      if s.xbar.r.rSel = .dev .ram then
        [.sample s.xbar.r.rAddrLat (s.sram.mem (Sram.wordIdx s.xbar.r.rAddrLat))] else [] := by
  rw [memEvents_onRead]
  simp [masters, AxiLiteXbar.rsp, AxiLiteXbar.req, h, hv, hi, whenFire]

theorem memReads_wait (h : s.xbar.r.rState = .wait) (hv : s.xbar.r.sRvalid = false) :
    (s.memEvents i).filter MemEvent.onRead = [] := by
  rw [memEvents_onRead]
  simp [masters, AxiLiteXbar.rsp, AxiLiteXbar.req, h, hv, whenFire]

theorem memReads_resp (h : s.xbar.r.rState = .resp) :
    (s.memEvents i).filter MemEvent.onRead =
      if s.xbar.r.sRvalid && s.xbar.r.curRready (s.xbarIn i) then
        [.r (granted s.xbar.r.rGrant) s.xbar.r.sRdata s.xbar.r.sRresp] else [] := by
  rw [memEvents_onRead]
  simp only [masters, AxiLiteXbar.rsp, AxiLiteXbar.req, h, whenFire, ReadPath.curRready, Fabric.xbarIn_up]
  rcases master_cases (granted s.xbar.r.rGrant) with hg | hg <;> simp [hg]

/-- The two outcomes of an edge: the open read goes on, or it ends. -/
def MemReadNext (s : Fabric (withSram rest)) (i : FabricIn (withSram rest)) (n : ℕ)
    (cur : List (ℕ × MemEvent)) : Prop :=
  let es := ((s.memEvents i).filter MemEvent.onRead).map (n, ·)
  MemReadPhase (s.step true i) (cur ++ es) ∨ (MemReadTxn (cur ++ es) ∧ MemReadPhase (s.step true i) [])

theorem MemReadPhase.idle_step (h : s.xbar.r.rState = .idle) (hv : s.xbar.r.sRvalid = false) :
    MemReadNext s i n [] := by
  left
  rw [memReads_idle i h hv]
  cases ha : (s.xbar.r.cur (s.xbarIn i)).arvalid with
  | false =>
    obtain ⟨hst, hbv⟩ := rIdle_next (s.xbarIn i) h ha
    exact .idle hst (hbv.trans hv)
  | true =>
    obtain ⟨⟨h1, h3⟩, h2, ⟨h4, h5⟩, h6⟩ := rTake_next (s.xbarIn i) h ha
    rw [← h6, if_pos rfl, ← h4]
    exact .issue h1 (h2.trans hv) h3 h5 n

/-- In the cycle the SRAM sees the address, its array is sampled. -/
theorem MemReadPhase.issue_step (h : s.xbar.r.rState = .issue) (hv : s.xbar.r.sRvalid = false)
    (hi : s.xbar.r.rIssuedAr = false) (sel : s.xbar.r.rSel = decodeAddr s.xbar.r.rAddrLat) (t : ℕ) :
    MemReadNext s i n [(t, .ar (granted s.xbar.r.rGrant) s.xbar.r.rAddrLat)] := by
  obtain ⟨⟨h1, h2⟩, h3⟩ := rLatch_next (s.xbarIn i) (s := s.xbar) (by simp [h])
  rw [← Fabric.step_xbar] at h1 h2 h3
  left
  rw [memReads_issue i h hv hi, ← h1, ← h3, ← h2]
  rw [← h1, ← h2] at sel
  cases hp : (s.step true i).xbar.r.rSel with
  | dev p =>
    have hp' := h2.symm.trans hp
    obtain ⟨-, -, hra⟩ := s.ready p
    obtain ⟨hst, -, hbv⟩ := rIssue_next (s.xbarIn i) h (by simp [ReadPath.noSlave, hp'])
    simp only [ReadPath.slaveArready, hp', Fabric.xbarIn_down, hra, Bool.or_true, if_true] at hst
    -- of the slaves only the SRAM has an event here
    by_cases hram : p = .ram
    · subst hram
      have har : (s.xbar.req .ram).arvalid = true := by simp [AxiLiteXbar.req, h, hp', hi]
      have hdata : (s.step true i).sram.port.sRdata = s.sram.mem (Sram.wordIdx s.xbar.r.rAddrLat) := by
        change (if (s.xbar.req .ram).arvalid then _ else _) = _
        rw [if_pos har]
        rfl
      rw [if_pos rfl, h1, ← hdata, ← h1]
      exact .waitRam hst (hbv.trans hv) sel hp t n
    · rw [if_neg (by simpa using hram)]
      exact .waitOther hst (hbv.trans hv) sel hp hram t
  | xbarCsr | err =>
    obtain ⟨hst, -⟩ := rIssueNone_next (s.xbarIn i) h (by simp [ReadPath.noSlave, h2.symm.trans hp])
    have hne : decodeAddr (s.step true i).xbar.r.rAddrLat ≠ .dev .ram := by simp [← sel, hp]
    exact .resp hst fun t' => MemReadTxn.other _ hne t t' _ _

/-- What an edge in `R_WAIT_R` latches. -/
theorem wait_latches {p : Slave} (h : s.xbar.r.rState = .wait) (hp : s.xbar.r.rSel = .dev p)
    (hr : (s.devRsp p).rvalid = true) :
    (s.step true i).xbar.r.rState = .resp ∧
      (s.step true i).xbar.finalR = ((s.devRsp p).rdata, (s.devRsp p).rresp) := by
  obtain ⟨⟨-, h2⟩, -⟩ := rLatch_next (s.xbarIn i) (s := s.xbar) (by simp [h])
  have hsv : s.xbar.r.slaveRvalid (s.xbarIn i) = true := by simpa [ReadPath.slaveRvalid, hp] using hr
  obtain ⟨hst, -, hdata⟩ := rWait_next (s.xbarIn i) h
  rw [hsv] at hst
  refine ⟨hst, ?_⟩
  simp [Fabric.step_xbar, AxiLiteXbar.finalR, h2, hp, hdata hsv, ReadPath.slaveRdata, ReadPath.slaveRresp]

theorem MemReadPhase.resp_step {l : List (ℕ × MemEvent)} (h : s.xbar.r.rState = .resp)
    (txn : ∀ t, MemReadTxn (l ++ [(t, .r (granted s.xbar.r.rGrant) s.xbar.finalR.1 s.xbar.finalR.2)])) :
    MemReadNext s i n l := by
  obtain ⟨-, h3⟩ := rLatch_next (s.xbarIn i) (s := s.xbar) (by simp [h])
  unfold MemReadNext
  rw [memReads_resp i h]
  cases hf : s.xbar.r.sRvalid && s.xbar.r.curRready (s.xbarIn i) with
  | true =>
    obtain ⟨hst, hv⟩ := rResp_taken (s.xbarIn i) h hf
    refine .inr ⟨?_, .idle hst.1 hst.2⟩
    simpa [AxiLiteXbar.finalR, hv] using txn n
  | false =>
    obtain ⟨⟨hst, -⟩, hfin⟩ := rResp_held (s.xbarIn i) h hf
    refine .inl (.resp hst fun t => ?_)
    simpa [Fabric.step_xbar, hfin, h3] using txn t

theorem MemReadPhase.step {diag : ℕ → Word32 → Word32} {rcur : List (ℕ × REvent)} {cur : List (ℕ × MemEvent)}
    (h : MemReadPhase s cur) (hr : PulseRPhase diag s n rcur) : MemReadNext s i n cur := by
  cases h with
  | idle h hv => exact idle_step i n h hv
  | issue h hv hi sel t => exact issue_step i n h hv hi sel t
  | waitRam h hv sel hp t t' =>
    obtain ⟨hst, hfin⟩ := wait_latches i h hp (hr.pulse .ram h hp)
    obtain ⟨-, h3⟩ := rLatch_next (s.xbarIn i) (s := s.xbar) (by simp [h])
    rw [← Fabric.step_xbar] at h3
    left
    rw [memReads_wait i h hv]
    refine .resp hst fun t'' => ?_
    rw [hfin, h3]
    exact .ram _ (sel.symm.trans hp) t t' t'' _ _
  | @waitOther p h hv sel hp hram t =>
    obtain ⟨hst, hfin⟩ := wait_latches i h hp (hr.pulse p h hp)
    obtain ⟨-, h3⟩ := rLatch_next (s.xbarIn i) (s := s.xbar) (by simp [h])
    rw [← Fabric.step_xbar] at h3
    left
    rw [memReads_wait i h hv]
    refine .resp hst fun t' => ?_
    rw [hfin, h3]
    exact .other _ (by simp [← sel, hp, hram]) t t' _ _
  | resp h txn => exact resp_step i n h txn

end ReadEdge

theorem MemReadPhase.exists_txn {s : Fabric (withSram rest)} {cur : List (ℕ × MemEvent)} (h : MemReadPhase s cur) :
    ∃ rest', MemReadTxn (cur ++ rest') := by
  cases h with
  | idle => exact ⟨[_, _], .other (a := 0xffffffff) .s0 (by decide) 0 0 0 0⟩
  | issue _ _ _ _ t =>
    by_cases ha : decodeAddr s.xbar.r.rAddrLat = .dev .ram
    · exact ⟨[_, _], .ram _ ha t 0 0 0 0⟩
    · exact ⟨[_], .other _ ha t 0 0 0⟩
  | waitRam _ _ sel hp t t' => exact ⟨[_], .ram _ (sel.symm.trans hp) t t' 0 _ 0⟩
  | waitOther _ _ sel hp hram t => exact ⟨[_], .other _ (by simp [← sel, hp, hram]) t 0 0 0⟩
  | resp _ txn => exact ⟨_, txn 0⟩

/-- The read side of the memory log is whole reads and the first part of one more. -/
theorem memLog_reads (r : Run (@Fabric.step (withSram rest))) (n : ℕ) :
    ∃ cur, Parses MemReadTxn ((r.log Fabric.memEvents n).filter (·.2.onRead)) cur ∧
      ∃ rest', MemReadTxn (cur ++ rest') := by
  suffices h : ∃ cur, Parses MemReadTxn ((r.log Fabric.memEvents n).filter (·.2.onRead)) cur ∧
      MemReadPhase (r.st n) cur by
    obtain ⟨cur, hl, hp⟩ := h
    exact ⟨cur, hl, hp.exists_txn⟩
  induction n with
  | zero => exact ⟨[], .nil, .idle rfl rfl⟩
  | succ n ih =>
    obtain ⟨cur, hl, hp⟩ := ih
    obtain ⟨rcur, -, hr⟩ := rLog_pulsePhase r n
    have hes : (r.eventsAt Fabric.memEvents n).filter (·.2.onRead) =
        (((r.st n).memEvents (r.inp n)).filter MemEvent.onRead).map (n, ·) := by
      rw [Run.eventsAt, List.filter_map]
      rfl
    rw [Run.log_succ, List.filter_append, hes]
    rcases hp.step (r.inp n) n hr with h | ⟨ht, h⟩
    · exact ⟨_, hl.append _, h⟩
    · exact ⟨[], (hl.append _).close ht, h⟩

/-- The memory log of any run is one order of all commits and samples. Its write
side is whole writes, each to the SRAM with one commit between its beats and its
response, its read side whole reads, each from the SRAM with one sample of the
word returned between its address and its data; and every sample reads, byte by
byte, the last commit before it to that byte of the word, or the initial memory. -/
theorem sram_linearizable (r : Run (@Fabric.step (withSram rest))) (n : ℕ) :
    (∃ cur, Parses MemWriteTxn ((r.log Fabric.memEvents n).filter (·.2.onWrite)) cur ∧
      ∃ rest', MemWriteTxn (cur ++ rest')) ∧
    (∃ cur, Parses MemReadTxn ((r.log Fabric.memEvents n).filter (·.2.onRead)) cur ∧
      ∃ rest', MemReadTxn (cur ++ rest')) ∧
    Consistent r.powerUp.sram.mem (r.log Fabric.memEvents n) :=
  ⟨memLog_writes r n, memLog_reads r n, (memLog_consistent r n).2⟩

end RiscvSoc.Crossbar
