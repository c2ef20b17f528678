import RiscvSoc.Crossbar.PulseRead
/-!
# Runs with slaves that answer with pulses
-/

namespace RiscvSoc.Crossbar

open Sync

variable {bank : Slave → PulseSlave}

/-! ## What is left of the open part -/

section Open

variable {s : Fabric bank} {n : ℕ}

theorem UpBeats.exists_pulseTxn {m : Master} {a d : Word32} {sb : BitVec 4} {up : List (ℕ × WEvent)} {c : ℕ}
    (h : UpBeats m a d sb up) (hc : LastAt up c) : ∃ rest, PulseWriteTxn (up ++ rest) := by
  cases ha : decodeAddr a with
  | dev p => exact ⟨_, .slave h hc ha axiRespOkay (c + 4) le_rfl⟩
  | xbarCsr => exact ⟨_, .csr h hc ha (c + 3) le_rfl⟩
  | err => exact ⟨_, .err h hc ha (c + 3) le_rfl⟩

theorem PulsePhase.exists_txn {cur : List (ℕ × WEvent)} (h : PulsePhase s n cur) :
    ∃ rest, PulseWriteTxn (cur ++ rest) := by
  cases h with
  | idle h hp =>
    cases hp with
    | closed =>
      obtain ⟨rest, hr⟩ := (@UpBeats.awFirst .s0 0 0 0 0 0).exists_pulseTxn ⟨_, rfl⟩
      exact ⟨_ :: _ :: rest, hr⟩
    | gotAw _ _ _ _ _ t =>
      have hup := @UpBeats.awFirst (granted s.xbar.w.wGrant) s.xbar.w.wAddrLat 0 0 t 0
      obtain ⟨rest, hr⟩ := hup.exists_pulseTxn ⟨_, rfl⟩
      exact ⟨_ :: rest, hr⟩
    | gotW _ _ _ _ t =>
      have hup := @UpBeats.wFirst (granted s.xbar.w.wGrant) 0 s.xbar.w.wDataLat s.xbar.w.wStrbLat t 0
      obtain ⟨rest, hr⟩ := hup.exists_pulseTxn ⟨_, rfl⟩
      exact ⟨_ :: rest, hr⟩
    | issueSlave h' | issueNone h' | wait h' | resp h' => simp [h] at h'
  | issue _ _ hl _ hc => exact hl.beats.exists_pulseTxn hc
  | wait _ _ hl hp _ hc =>
    exact ⟨_, by simpa using PulseWriteTxn.slave hl.beats hc (hl.sel.symm.trans hp) axiRespOkay _ le_rfl⟩
  | resp _ _ _ _ txn => exact ⟨_, txn (n + 1) (by split <;> omega)⟩

theorem PulseRPhase.exists_txn {diag : ℕ → Word32 → Word32} {cur : List (ℕ × REvent)} (h : PulseRPhase diag s n cur) :
    ∃ rest, PulseReadTxn diag (cur ++ rest) := by
  cases h with
  | idle => exact ⟨[_, _], .err (a := 0xffffffff) .s0 (by decide) 0 3 le_rfl⟩
  | issue _ _ _ sel _ =>
    cases hp : s.xbar.r.rSel with
    | dev p => exact ⟨[_, _, _], .slave _ (sel.symm.trans hp) _ 0 axiRespOkay _ le_rfl⟩
    | xbarCsr => exact ⟨[_], .csr _ (sel.symm.trans hp) _ _ le_rfl⟩
    | err => exact ⟨[_], .err _ (sel.symm.trans hp) _ _ le_rfl⟩
  | wait _ _ sel hp => exact ⟨[_, _], .slave _ (sel.symm.trans hp) _ 0 axiRespOkay _ le_rfl⟩
  | resp _ _ _ txn => exact ⟨_, txn (n + 1) (by split <;> omega)⟩

theorem UpBeats.master_unique {m m' : Master} {a a' d d' : Word32} {sb sb' : BitVec 4} {up : List (ℕ × WEvent)}
    (h : UpBeats m a d sb up) (h' : UpBeats m' a' d' sb' up) : m = m' := by
  cases h <;> cases h' <;> rfl

theorem PulseWriteTxn.shape {l : List (ℕ × WEvent)} (h : PulseWriteTxn l) :
    ∃ m a d sb up mid t resp, UpBeats m a d sb up ∧ l = (up ++ mid) ++ [(t, .b m resp)] := by
  cases h with
  | slave hup => exact ⟨_, _, _, _, _, [_, _, _], _, _, hup, by rw [List.append_assoc]; rfl⟩
  | err hup | csr hup => exact ⟨_, _, _, _, _, [], _, _, hup, by rw [List.append_nil]⟩

/-- The response goes to the master of the beats. -/
theorem PulseWriteTxn.master_eq {cur : List (ℕ × WEvent)} {g m : Master} {a d : Word32} {sb : BitVec 4} {t : ℕ}
    {resp : Resp} (h : PulseWriteTxn (cur ++ [(t, .b g resp)])) (hup : UpBeats m a d sb (cur.take 2)) : g = m := by
  obtain ⟨m', a', d', sb', up, mid, t', resp', hup', hl⟩ := h.shape
  obtain ⟨rfl, hlast⟩ := List.append_inj' hl rfl
  rw [hup'.take_append] at hup
  simp only [List.cons.injEq, Prod.mk.injEq, WEvent.b.injEq, and_true] at hlast
  exact hlast.2.1.trans (hup'.master_unique hup)

/-- From the fourth cycle after the later beat the response is on offer. -/
theorem PulsePhase.offered {cur : List (ℕ × WEvent)} {m : Master} {a d : Word32} {sb : BitVec 4} {c : ℕ}
    (h : PulsePhase s n cur) (hup : UpBeats m a d sb (cur.take 2)) (hc : LastAt (cur.take 2) c) (hn : c + 4 ≤ n) :
    granted s.xbar.w.wGrant = m ∧ s.xbar.w.sBvalid = true ∧ PulseWriteTxn (cur ++ [(n, .b m s.xbar.w.sBresp)]) := by
  -- each phase but the last is over by then
  obtain ⟨e, hc⟩ := hc
  have hlen := hup.length
  cases h with
  | idle h hp =>
    have hle := Phase_idle_length h hp
    rw [List.length_take] at hlen
    omega
  | issue _ _ hl _ hc' hn' =>
    obtain ⟨e', hc'⟩ := hc'
    rw [List.take_of_length_le hl.beats.length.le, hc'] at hc
    simp only [Option.some.injEq, Prod.mk.injEq] at hc
    omega
  | wait _ _ hl _ _ hc' hn' =>
    obtain ⟨e', hc'⟩ := hc'
    rw [hl.beats.take_append, hc'] at hc
    simp only [Option.some.injEq, Prod.mk.injEq] at hc
    omega
  | resp _ _ hc' hn' txn =>
    obtain ⟨e', hc'⟩ := hc'
    rw [hc'] at hc
    simp only [Option.some.injEq, Prod.mk.injEq] at hc
    have hb : s.xbar.w.sBvalid = true := by
      cases hb : s.xbar.w.sBvalid with
      | true => rfl
      | false =>
        have hle := hn' hb
        omega
    have htxn := txn n (by simp [hb])
    have hm := htxn.master_eq hup
    refine ⟨hm, hb, ?_⟩
    rw [hm] at htxn
    simpa [WritePath.finalResp, hb] using htxn

theorem PulseReadTxn.shape {diag : ℕ → Word32 → Word32} {l : List (ℕ × REvent)} (h : PulseReadTxn diag l) :
    ∃ c m a mid t d resp, l = ((c, .ar m a) :: mid) ++ [(t, .r m d resp)] := by
  cases h with
  | slave m _ c d resp t => exact ⟨c, m, _, [_, _], t, d, resp, rfl⟩
  | err m _ c t | csr m _ c t => exact ⟨c, m, _, [], t, _, _, rfl⟩

/-- From the fourth cycle after the address the data are on offer. -/
theorem PulseRPhase.offered {diag : ℕ → Word32 → Word32} {cur : List (ℕ × REvent)} {m : Master} {a : Word32} {c : ℕ}
    (h : PulseRPhase diag s n cur) (har : cur.head? = some (c, .ar m a)) (hn : c + 4 ≤ n) :
    granted s.xbar.r.rGrant = m ∧ s.xbar.r.sRvalid = true ∧
      PulseReadTxn diag (cur ++ [(n, .r m s.xbar.r.sRdata s.xbar.r.sRresp)]) := by
  cases h with
  | idle => simp at har
  | issue _ _ _ _ hn' | wait _ _ _ _ _ hn' =>
    simp only [List.head?_cons, Option.some.injEq, Prod.mk.injEq] at har
    omega
  | resp _ hc' hn' txn =>
    obtain ⟨e', hc'⟩ := hc'
    have hce := hc'.symm.trans har
    simp only [Option.some.injEq, Prod.mk.injEq] at hce
    have hv : s.xbar.r.sRvalid = true := by
      cases hv : s.xbar.r.sRvalid with
      | true => rfl
      | false =>
        have hle := hn' hv
        omega
    have htxn := txn n (by simp [hv])
    obtain ⟨c', m', a', mid, t', d', resp', hl⟩ := htxn.shape
    obtain ⟨rfl, hlast⟩ := List.append_inj' hl rfl
    simp only [List.cons.injEq, Prod.mk.injEq, REvent.r.injEq, and_true] at hlast
    simp only [List.head?_cons, Option.some.injEq, Prod.mk.injEq, REvent.ar.injEq] at har
    have hm := hlast.2.1.trans har.2.1
    refine ⟨hm, hv, ?_⟩
    rw [hm] at htxn
    simpa [AxiLiteXbar.finalR, hv] using htxn

end Open

/-! ## What a slave sees -/

/-- Slave `p` sees the two beats of a write together, a request is a handshake at
once, and a pulse meets the crossbar waiting for it. -/
structure Aligned (s : Fabric bank) (i : FabricIn bank) (p : Slave) : Prop where
  both : (s.xbar.req p).awvalid = (s.xbar.req p).wvalid
  write : (s.xbar.req p).awvalid = true ↔ WEvent.slaveAw p (s.xbar.req p).awaddr ∈ s.wEvents i
  read : (s.xbar.req p).arvalid = true ↔ REvent.slaveAr p (s.xbar.req p).araddr ∈ s.rEvents i
  bvalid : ((s.step true i).devRsp p).bvalid = true ↔
    (s.step true i).xbar.w.wState = .wait ∧ (s.step true i).xbar.w.wSel = .dev p
  rvalid : ((s.step true i).devRsp p).rvalid = true ↔
    (s.step true i).xbar.r.rState = .wait ∧ (s.step true i).xbar.r.rSel = .dev p

theorem mem_slaves (p : Slave) : p ∈ slaves := by cases p <;> decide

section View

variable {s : Fabric bank} (i : FabricIn bank) (p : Slave) {n : ℕ}

theorem slaveAw_mem_wEvents (a : Word32) :
    WEvent.slaveAw p a ∈ s.wEvents i ↔ (s.xbar.req p).awvalid = true ∧ a = (s.xbar.req p).awaddr := by
  have hready (q : Slave) : (s.devRsp q).awready = true := (s.ready q).1
  simp only [Fabric.wEvents, wEvents, List.mem_append, List.mem_flatMap, mem_whenFire, Fabric.xbarIn_down, hready]
  grind [mem_slaves]

theorem slaveAr_mem_rEvents (a : Word32) :
    REvent.slaveAr p a ∈ s.rEvents i ↔ (s.xbar.req p).arvalid = true ∧ a = (s.xbar.req p).araddr := by
  have hready (q : Slave) : (s.devRsp q).arready = true := (s.ready q).2.2
  simp only [Fabric.rEvents, rEvents, List.mem_append, List.mem_flatMap, mem_whenFire, Fabric.xbarIn_down, hready]
  grind [mem_slaves]

/-- The crossbar presents a write for one cycle, before the one it waits in. -/
theorem PulsePhase.presents {cur : List (ℕ × WEvent)} (h : PulsePhase s n cur) :
    (s.xbar.req p).awvalid = (s.xbar.req p).wvalid ∧
      ((s.xbar.req p).awvalid = true →
        (s.step true i).xbar.w.wState = .wait ∧ (s.step true i).xbar.w.wSel = .dev p) := by
  cases h with
  | idle h | wait h | resp h => simp [AxiLiteXbar.req, h]
  | issue h _ _ hi =>
    refine ⟨by simp [AxiLiteXbar.req, hi], fun hv => ?_⟩
    have hp : s.xbar.w.wSel = .dev p := by
      simp only [AxiLiteXbar.req, Bool.and_eq_true, decide_eq_true_eq] at hv
      exact hv.1.2
    obtain ⟨⟨-, h2⟩, -⟩ := WritePath.latch_next (s.xbarIn i) (s := s.xbar.w) (by simp [h])
    obtain ⟨hst, -⟩ := WritePath.issue_next (s.xbarIn i) h (by simp [WritePath.noSlave, hp])
    obtain ⟨hra, hrw, -⟩ := s.ready p
    refine ⟨?_, h2.trans hp⟩
    simpa [Fabric.step_w, WritePath.slaveAwready, WritePath.slaveWready, hp, hra, hrw] using hst

theorem PulseRPhase.presents {diag : ℕ → Word32 → Word32} {cur : List (ℕ × REvent)} (h : PulseRPhase diag s n cur)
    (hv : (s.xbar.req p).arvalid = true) :
    (s.step true i).xbar.r.rState = .wait ∧ (s.step true i).xbar.r.rSel = .dev p := by
  cases h with
  | idle h | wait h | resp h => simp [AxiLiteXbar.req, h] at hv
  | issue h _ hi =>
    have hp : s.xbar.r.rSel = .dev p := by
      simp only [AxiLiteXbar.req, Bool.and_eq_true, decide_eq_true_eq] at hv
      exact hv.1.2
    obtain ⟨⟨-, h2⟩, -⟩ := rLatch_next (s.xbarIn i) (s := s.xbar) (by simp [h])
    obtain ⟨-, -, hra⟩ := s.ready p
    obtain ⟨hst, -⟩ := rIssue_next (s.xbarIn i) h (by simp [ReadPath.noSlave, hp])
    refine ⟨?_, h2.trans hp⟩
    simpa [Fabric.step_xbar, ReadPath.slaveArready, hp, hra] using hst

/-- While the crossbar waits, the pulse is there. -/
theorem PulsePhase.pulse {cur : List (ℕ × WEvent)} (h : PulsePhase s n cur) (hw : s.xbar.w.wState = .wait)
    (hp : s.xbar.w.wSel = .dev p) : (s.devRsp p).bvalid = true := by
  cases h with
  | wait _ _ _ hp' hv =>
    obtain rfl : p = _ := by simpa using hp.symm.trans hp'
    exact hv
  | idle h | issue h | resp h => simp [h] at hw

theorem PulseRPhase.pulse {diag : ℕ → Word32 → Word32} {cur : List (ℕ × REvent)} (h : PulseRPhase diag s n cur)
    (hw : s.xbar.r.rState = .wait) (hp : s.xbar.r.rSel = .dev p) : (s.devRsp p).rvalid = true := by
  cases h with
  | wait _ _ _ hp' hr =>
    obtain rfl : p = _ := by simpa using hp.symm.trans hp'
    exact hr
  | idle h | issue h | resp h => simp [h] at hw

end View

/-! ## Runs -/

section Runs

variable (r : Run (@Fabric.step bank))

/-- What the diagnostic CSR reads in cycle `n` of the whole. -/
def Fabric.diag : ℕ → Word32 → Word32 := diagValue (xbarRun r)

theorem Fabric.diag_eq (n : ℕ) (a : Word32) :
    Fabric.diag r n a = (r.st n).xbar.r.diagCsr (r.st n).xbar.w.lastDecerrWaddr a := by
  rw [diag, diagValue_eq, xbarRun_st]

theorem wLog_pulsePhase (n : ℕ) :
    ∃ cur, Parses PulseWriteTxn (r.log Fabric.wEvents n) cur ∧ PulsePhase (r.st n) n cur := by
  induction n with
  | zero => exact ⟨[], .nil, .idle rfl (.closed rfl rfl rfl rfl)⟩
  | succ n ih =>
    obtain ⟨cur, hl, hp⟩ := ih
    rw [Run.log_succ]
    rcases hp.step (r.inp n) n with h | ⟨ht, h⟩
    · exact ⟨_, hl.append _, h⟩
    · exact ⟨[], (hl.append _).close ht, h⟩

theorem rLog_pulsePhase (n : ℕ) :
    ∃ cur, Parses (PulseReadTxn (Fabric.diag r)) (r.log Fabric.rEvents n) cur ∧
      PulseRPhase (Fabric.diag r) (r.st n) n cur := by
  induction n with
  | zero => exact ⟨[], .nil, .idle rfl rfl⟩
  | succ n ih =>
    obtain ⟨cur, hl, hp⟩ := ih
    rw [Run.log_succ]
    rcases hp.step (r.inp n) n (Fabric.diag_eq r (n + 1)) with h | ⟨ht, h⟩
    · exact ⟨_, hl.append _, h⟩
    · exact ⟨[], (hl.append _).close ht, h⟩

theorem aligned (n : ℕ) (p : Slave) : Aligned (r.st n) (r.inp n) p := by
  obtain ⟨wcur, -, hw⟩ := wLog_pulsePhase r n
  obtain ⟨rcur, -, hr⟩ := rLog_pulsePhase r n
  obtain ⟨wcur', -, hw'⟩ := wLog_pulsePhase r (n + 1)
  obtain ⟨rcur', -, hr'⟩ := rLog_pulsePhase r (n + 1)
  obtain ⟨hboth, hwait⟩ := hw.presents (r.inp n) p
  constructor
  · exact hboth
  · simp [slaveAw_mem_wEvents]
  · simp [slaveAr_mem_rEvents]
  · refine ⟨fun h => ?_, fun ⟨h, hp⟩ => hw'.pulse p h hp⟩
    rw [Fabric.bvalid_next, ← hboth, Bool.and_self] at h
    exact hwait h
  · refine ⟨fun h => ?_, fun ⟨h, hp⟩ => hr'.pulse p h hp⟩
    rw [Fabric.rvalid_next] at h
    exact hr.presents (r.inp n) p h

/-- With slaves that answer with pulses, the write log and the read log of any run
are whole transactions, each step of them in its cycle, and the first part of one
more. From the fourth cycle after the later beat, or after the read address, the
response is on offer to the master, until it is taken. -/
theorem pulse_transactions (n : ℕ) :
    (∃ cur, Parses PulseWriteTxn (r.log Fabric.wEvents n) cur ∧ (∃ rest, PulseWriteTxn (cur ++ rest)) ∧
      ∀ m a d sb c, UpBeats m a d sb (cur.take 2) → LastAt (cur.take 2) c → c + 4 ≤ n →
        ((r.st n).xbar.rsp ((r.st n).xbarIn (r.inp n)) m).bvalid = true ∧
        PulseWriteTxn (cur ++ [(n, .b m ((r.st n).xbar.rsp ((r.st n).xbarIn (r.inp n)) m).bresp)])) ∧
    (∃ cur, Parses (PulseReadTxn (Fabric.diag r)) (r.log Fabric.rEvents n) cur ∧
      (∃ rest, PulseReadTxn (Fabric.diag r) (cur ++ rest)) ∧
      ∀ m a c, cur.head? = some (c, .ar m a) → c + 4 ≤ n →
        ((r.st n).xbar.rsp ((r.st n).xbarIn (r.inp n)) m).rvalid = true ∧
        PulseReadTxn (Fabric.diag r) (cur ++ [(n, .r m ((r.st n).xbar.rsp ((r.st n).xbarIn (r.inp n)) m).rdata
          ((r.st n).xbar.rsp ((r.st n).xbarIn (r.inp n)) m).rresp)])) ∧
    ∀ p, Aligned (r.st n) (r.inp n) p := by
  refine ⟨?_, ?_, aligned r n⟩
  · obtain ⟨cur, hl, hp⟩ := wLog_pulsePhase r n
    refine ⟨cur, hl, hp.exists_txn, fun m a d sb c hup hc hn => ?_⟩
    obtain ⟨hm, hb, htxn⟩ := hp.offered hup hc hn
    exact ⟨by simp [AxiLiteXbar.rsp, hm, hb], htxn⟩
  · obtain ⟨cur, hl, hp⟩ := rLog_pulsePhase r n
    refine ⟨cur, hl, hp.exists_txn, fun m a c har hn => ?_⟩
    obtain ⟨hm, hv, htxn⟩ := hp.offered har hn
    exact ⟨by simp [AxiLiteXbar.rsp, hm, hv], htxn⟩

end Runs

end RiscvSoc.Crossbar
