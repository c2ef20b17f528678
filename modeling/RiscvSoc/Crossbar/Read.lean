import RiscvSoc.Crossbar.WriteRun
/-!
# Read transactions of the crossbar

The handshakes of the read channels and what a whole read transaction is. The
two diagnostic words that the crossbar answers reads of its own with are stated
from the logs: the last address that decoded to nothing, per channel.
-/

namespace RiscvSoc.Crossbar

open Sync

/-! ## Events -/

/-- A handshake on a read channel: at a master's port, or at a slave's. -/
inductive REvent
  | ar (m : Master) (addr : Word32)
  | slaveAr (p : Slave) (addr : Word32)
  | slaveR (p : Slave) (data : Word32) (resp : Resp)
  | r (m : Master) (data : Word32) (resp : Resp)
  deriving DecidableEq, Repr

/-- The read handshakes of a cycle at all eleven ports. -/
def rEvents (s : AxiLiteXbar) (i : XbarIn) : List REvent :=
  masters.flatMap (fun m => whenFire (i.up m).arvalid (s.rsp i m).arready (.ar m (i.up m).araddr)) ++
  slaves.flatMap (fun p =>
    whenFire (s.req p).arvalid (i.down p).arready (.slaveAr p (s.req p).araddr) ++
    whenFire (i.down p).rvalid (s.req p).rready (.slaveR p (i.down p).rdata (i.down p).rresp)) ++
  masters.flatMap (fun m =>
    whenFire (s.rsp i m).rvalid (i.up m).rready (.r m (s.rsp i m).rdata (s.rsp i m).rresp))

/-! ## Transactions -/

/-- A whole read transaction: one address from a master, at the slave it decodes
to, that slave's data and response, and the same to the master. Without a slave
the crossbar answers: with no data, or with the diagnostic word `diag` of the
second cycle after the address was taken. -/
inductive ReadTxn (diag : ℕ → Word32 → Word32) : List (ℕ × REvent) → Prop
  | slave {a p} (m : Master) (hp : decodeAddr a = .dev p) (t₁ t₂ t₃ t₄ : ℕ) (d : Word32) (resp : Resp) :
      ReadTxn diag [(t₁, .ar m a), (t₂, .slaveAr p a), (t₃, .slaveR p d resp), (t₄, .r m d resp)]
  | err {a} (m : Master) (ha : decodeAddr a = .err) (t₁ t₂ : ℕ) :
      ReadTxn diag [(t₁, .ar m a), (t₂, .r m 0 axiRespDecerr)]
  | csr {a} (m : Master) (ha : decodeAddr a = .xbarCsr) (t₁ t₂ : ℕ) :
      ReadTxn diag [(t₁, .ar m a), (t₂, .r m (diag (t₁ + 2) a) axiRespOkay)]

/-! ## The open transaction -/

/-- What the crossbar gives, or is about to give, in `R_RESP`. -/
def AxiLiteXbar.finalR (s : AxiLiteXbar) : Word32 × Resp :=
  if s.r.rSel = .err && !s.r.sRvalid then (0, axiRespDecerr)
  else if s.r.rSel = .xbarCsr && !s.r.sRvalid then (s.r.diagCsr s.w.lastDecerrWaddr s.r.rAddrLat, axiRespOkay)
  else (s.r.sRdata, s.r.sRresp)

/-- `cur` is the part of the open transaction that has taken place before cycle `n`. -/
inductive RPhase (diag : ℕ → Word32 → Word32) (s : AxiLiteXbar) (n : ℕ) : List (ℕ × REvent) → Prop
  | closed (h : s.r.rState = .idle) (hv : s.r.sRvalid = false) : RPhase diag s n []
  | issue {t} (h : s.r.rState = .issue) (hv : s.r.sRvalid = false) (hi : s.r.rIssuedAr = false)
      (sel : s.r.rSel = decodeAddr s.r.rAddrLat) (ht : t + 1 = n) (hp : s.r.noSlave = true) :
      RPhase diag s n [(t, .ar (granted s.r.rGrant) s.r.rAddrLat)]
  | issueSlave {p} (h : s.r.rState = .issue) (hv : s.r.sRvalid = false) (hi : s.r.rIssuedAr = false)
      (sel : s.r.rSel = decodeAddr s.r.rAddrLat) (t : ℕ) (hp : s.r.rSel = .dev p) :
      RPhase diag s n [(t, .ar (granted s.r.rGrant) s.r.rAddrLat)]
  | wait {p} (h : s.r.rState = .wait) (hv : s.r.sRvalid = false) (sel : s.r.rSel = decodeAddr s.r.rAddrLat)
      (hp : s.r.rSel = .dev p) (t t' : ℕ) :
      RPhase diag s n [(t, .ar (granted s.r.rGrant) s.r.rAddrLat), (t', .slaveAr p s.r.rAddrLat)]
  | resp {l} (h : s.r.rState = .resp)
      (txn : ∀ t, ReadTxn diag (l ++ [(t, .r (granted s.r.rGrant) s.finalR.1 s.finalR.2)])) : RPhase diag s n l

/-! ## The events of each state -/

section Events

variable {s : AxiLiteXbar} {i : XbarIn}

theorem rEvents_idle (h : s.r.rState = .idle) (hv : s.r.sRvalid = false) :
    rEvents s i = if (s.r.cur i).arvalid then [.ar (granted (s.r.rGrantEff i)) (s.r.cur i).araddr] else [] := by
  simp only [rEvents, masters, slaves, AxiLiteXbar.rsp, AxiLiteXbar.req, h, hv, whenFire, ReadPath.cur]
  rcases master_cases (granted (s.r.rGrantEff i)) with hg | hg <;> simp [hg]

theorem rEvents_issue {p : Slave} (h : s.r.rState = .issue) (hv : s.r.sRvalid = false) (hp : s.r.rSel = .dev p) :
    rEvents s i = if !s.r.rIssuedAr && s.r.slaveArready i then [.slaveAr p s.r.rAddrLat] else [] := by
  simp only [rEvents, masters, slaves, AxiLiteXbar.rsp, AxiLiteXbar.req, h, hv, hp, whenFire, ReadPath.slaveArready]
  cases p <;> simp

theorem rEvents_issueNone (h : s.r.rState = .issue) (hv : s.r.sRvalid = false) (hp : s.r.noSlave = true) :
    rEvents s i = [] := by
  simp only [ReadPath.noSlave, Bool.or_eq_true, decide_eq_true_eq] at hp
  simp only [rEvents, masters, slaves, AxiLiteXbar.rsp, AxiLiteXbar.req, h, hv, whenFire]
  rcases hp with hp | hp <;> simp [hp]

theorem rEvents_wait {p : Slave} (h : s.r.rState = .wait) (hv : s.r.sRvalid = false) (hp : s.r.rSel = .dev p) :
    rEvents s i = if s.r.slaveRvalid i then [.slaveR p (s.r.slaveRdata i) (s.r.slaveRresp i)] else [] := by
  simp only [rEvents, masters, slaves, AxiLiteXbar.rsp, AxiLiteXbar.req, h, hv, hp, whenFire,
    ReadPath.slaveRvalid, ReadPath.slaveRdata, ReadPath.slaveRresp]
  cases p <;> simp

theorem rEvents_resp (h : s.r.rState = .resp) :
    rEvents s i =
      if s.r.sRvalid && s.r.curRready i then [.r (granted s.r.rGrant) s.r.sRdata s.r.sRresp] else [] := by
  simp only [rEvents, masters, slaves, AxiLiteXbar.rsp, AxiLiteXbar.req, h, whenFire, ReadPath.curRready]
  rcases master_cases (granted s.r.rGrant) with hg | hg <;> simp [hg]

end Events

/-! ## One edge -/

section Edge

variable {diag : ℕ → Word32 → Word32} {s : AxiLiteXbar} (i : XbarIn) (n : ℕ)

/-- Outside `R_IDLE` the latches and the grant do not change. -/
theorem rLatch_next (h : s.r.rState ≠ .idle) :
    let t := (s.step true i).r
    (t.rAddrLat = s.r.rAddrLat ∧ t.rSel = s.r.rSel) ∧ t.rGrant = s.r.rGrant := by
  cases hs : s.r.rState with
  | idle => exact absurd hs h
  | issue => cases hp : s.r.noSlave <;> simp [AxiLiteXbar.step, ReadPath.step, ReadPath.rOpen, hs, ReadPath.issueStep, hp]
  | wait =>
    cases hv : s.r.slaveRvalid i <;>
      simp [AxiLiteXbar.step, ReadPath.step, ReadPath.rOpen, hs, ReadPath.waitStep, hv]
  | resp =>
    simp only [AxiLiteXbar.step, ReadPath.step, ReadPath.rOpen, hs, ReadPath.respStep]
    grind

theorem rIdle_next (h : s.r.rState = .idle) (ha : (s.r.cur i).arvalid = false) :
    (s.step true i).r.rState = .idle ∧ (s.step true i).r.sRvalid = s.r.sRvalid := by
  simp [AxiLiteXbar.step, ReadPath.step, ReadPath.idleStep, h, ha]

/-- The edge in `R_IDLE` that takes an address. -/
theorem rTake_next (h : s.r.rState = .idle) (ha : (s.r.cur i).arvalid = true) :
    let t := (s.step true i).r
    (t.rState = .issue ∧ t.rIssuedAr = false) ∧ t.sRvalid = s.r.sRvalid ∧
      (t.rAddrLat = (s.r.cur i).araddr ∧ t.rSel = decodeAddr t.rAddrLat) ∧ t.rGrant = s.r.rGrantEff i := by
  simp [AxiLiteXbar.step, ReadPath.step, ReadPath.idleStep, h, ha, ReadPath.rGrantEff]

theorem rIssue_next (h : s.r.rState = .issue) (hp : s.r.noSlave = false) :
    let t := (s.step true i).r
    (t.rState = if s.r.rIssuedAr || s.r.slaveArready i then .wait else .issue) ∧
      t.rIssuedAr = (s.r.rIssuedAr || s.r.slaveArready i) ∧ t.sRvalid = s.r.sRvalid := by
  simp [AxiLiteXbar.step, ReadPath.step, h, ReadPath.issueStep, hp]

/-- With no slave behind it a read goes on to its response. -/
theorem rIssueNone_next (h : s.r.rState = .issue) (hp : s.r.noSlave = true) :
    (s.step true i).r.rState = .resp ∧ (s.step true i).r.sRvalid = s.r.sRvalid := by
  simp [AxiLiteXbar.step, ReadPath.step, h, ReadPath.issueStep, hp]

theorem rWait_next (h : s.r.rState = .wait) :
    let t := (s.step true i).r
    (t.rState = if s.r.slaveRvalid i then .resp else .wait) ∧ t.sRvalid = s.r.sRvalid ∧
      (s.r.slaveRvalid i = true → t.sRdata = s.r.slaveRdata i ∧ t.sRresp = s.r.slaveRresp i) := by
  cases hv : s.r.slaveRvalid i <;> simp [AxiLiteXbar.step, ReadPath.step, h, ReadPath.waitStep, hv]

/-- The edge in `R_RESP` at which the master takes the data. -/
theorem rResp_taken (h : s.r.rState = .resp) (hf : (s.r.sRvalid && s.r.curRready i) = true) :
    ((s.step true i).r.rState = .idle ∧ (s.step true i).r.sRvalid = false) ∧ s.r.sRvalid = true := by
  rw [Bool.and_eq_true] at hf
  simp [AxiLiteXbar.step, ReadPath.step, h, ReadPath.respStep, hf]

/-- At the others they are on offer from then on, as they are. -/
theorem rResp_held (h : s.r.rState = .resp) (hf : (s.r.sRvalid && s.r.curRready i) = false) :
    ((s.step true i).r.rState = .resp ∧ (s.step true i).r.sRvalid = true) ∧ (s.step true i).finalR = s.finalR := by
  have hst : (s.step true i).r.rState = .resp ∧ (s.step true i).r.sRvalid = true ∧
      ((s.step true i).r.sRdata, (s.step true i).r.sRresp) = s.finalR := by
    simp only [AxiLiteXbar.step, ReadPath.step, h, ReadPath.respStep, hf, AxiLiteXbar.finalR]
    grind
  refine ⟨⟨hst.1, hst.2.1⟩, ?_⟩
  rw [← hst.2.2]
  simp [AxiLiteXbar.finalR, hst.2.1]

/-- The two outcomes of an edge: the open transaction goes on, or it ends. -/
def RNext (diag : ℕ → Word32 → Word32) (s : AxiLiteXbar) (i : XbarIn) (n : ℕ) (cur : List (ℕ × REvent)) : Prop :=
  let es := (rEvents s i).map (n, ·)
  RPhase diag (s.step true i) (n + 1) (cur ++ es) ∨
    (ReadTxn diag (cur ++ es) ∧ RPhase diag (s.step true i) (n + 1) [])

theorem RPhase.closed_step (h : s.r.rState = .idle) (hv : s.r.sRvalid = false) : RNext diag s i n [] := by
  left
  rw [rEvents_idle h hv]
  cases ha : (s.r.cur i).arvalid with
  | false =>
    obtain ⟨hst, hbv⟩ := rIdle_next i h ha
    exact .closed hst (hbv.trans hv)
  | true =>
    obtain ⟨⟨h1, h3⟩, h2, ⟨h4, h5⟩, h6⟩ := rTake_next i h ha
    rw [← h6, if_pos rfl, ← h4]
    cases hp : (s.step true i).r.rSel with
    | dev p => exact .issueSlave h1 (h2.trans hv) h3 h5 n hp
    | xbarCsr | err => exact .issue h1 (h2.trans hv) h3 h5 rfl (by simp [ReadPath.noSlave, hp])

/-- Without a slave the answer is that of the second cycle after the address. -/
theorem RPhase.issue_step {t : ℕ} (h : s.r.rState = .issue) (hv : s.r.sRvalid = false)
    (sel : s.r.rSel = decodeAddr s.r.rAddrLat) (ht : t + 1 = n) (hp : s.r.noSlave = true)
    (hd : ∀ a, diag (n + 1) a = (s.step true i).r.diagCsr (s.step true i).w.lastDecerrWaddr a) :
    RNext diag s i n [(t, .ar (granted s.r.rGrant) s.r.rAddrLat)] := by
  obtain ⟨⟨h1, h2⟩, h3⟩ := rLatch_next i (s := s) (by simp [h])
  obtain ⟨hst, hbv⟩ := rIssueNone_next i h hp
  rw [hv] at hbv
  left
  rw [rEvents_issueNone h hv hp]
  refine .resp hst fun t' => ?_
  subst ht
  simp only [ReadPath.noSlave, Bool.or_eq_true, decide_eq_true_eq] at hp
  rcases hp with hp | hp
  · simpa [AxiLiteXbar.finalR, h2, hp, hbv, h3] using ReadTxn.err _ (sel.symm.trans hp) t t'
  · have := @ReadTxn.csr diag _ (granted s.r.rGrant) (sel.symm.trans hp) t t'
    simpa [AxiLiteXbar.finalR, h1, h2, hp, hbv, h3, hd] using this

theorem RPhase.issueSlave_step {p : Slave} (h : s.r.rState = .issue) (hv : s.r.sRvalid = false)
    (hi : s.r.rIssuedAr = false) (sel : s.r.rSel = decodeAddr s.r.rAddrLat) (t : ℕ) (hp : s.r.rSel = .dev p) :
    RNext diag s i n [(t, .ar (granted s.r.rGrant) s.r.rAddrLat)] := by
  obtain ⟨⟨h1, h2⟩, h3⟩ := rLatch_next i (s := s) (by simp [h])
  obtain ⟨hst, his, hbv⟩ := rIssue_next i h (by simp [ReadPath.noSlave, hp])
  left
  rw [rEvents_issue h hv hp, ← h1, ← h3]
  rw [← h1, ← h2] at sel
  rw [hi, Bool.false_or] at hst his
  cases ha : s.r.slaveArready i with
  | false =>
    rw [ha] at hst his
    simpa using RPhase.issueSlave hst (hbv.trans hv) his sel t (h2.trans hp)
  | true =>
    rw [ha] at hst
    simpa [hi] using RPhase.wait hst (hbv.trans hv) sel (h2.trans hp) t n

theorem RPhase.wait_step {p : Slave} (h : s.r.rState = .wait) (hv : s.r.sRvalid = false)
    (sel : s.r.rSel = decodeAddr s.r.rAddrLat) (hp : s.r.rSel = .dev p) (t t' : ℕ) :
    RNext diag s i n [(t, .ar (granted s.r.rGrant) s.r.rAddrLat), (t', .slaveAr p s.r.rAddrLat)] := by
  obtain ⟨⟨h1, h2⟩, h3⟩ := rLatch_next i (s := s) (by simp [h])
  obtain ⟨hst, hbv, hdata⟩ := rWait_next i h
  left
  rw [rEvents_wait h hv hp]
  cases hr : s.r.slaveRvalid i with
  | false =>
    rw [hr] at hst
    rw [← h1, ← h3]
    rw [← h1, ← h2] at sel
    simpa using RPhase.wait hst (hbv.trans hv) sel (h2.trans hp) t t'
  | true =>
    rw [hr] at hst
    refine .resp hst fun t'' => ?_
    rw [hp] at sel
    have htxn := @ReadTxn.slave diag _ _ (granted s.r.rGrant) sel.symm t t' n t'' (s.r.slaveRdata i) (s.r.slaveRresp i)
    simpa [AxiLiteXbar.finalR, h2, hp, hdata hr, h3] using htxn

theorem RPhase.resp_step {l : List (ℕ × REvent)} (h : s.r.rState = .resp)
    (txn : ∀ t, ReadTxn diag (l ++ [(t, .r (granted s.r.rGrant) s.finalR.1 s.finalR.2)])) : RNext diag s i n l := by
  obtain ⟨-, h3⟩ := rLatch_next i (s := s) (by simp [h])
  unfold RNext
  rw [rEvents_resp h]
  cases hf : s.r.sRvalid && s.r.curRready i with
  | true =>
    obtain ⟨hst, hv⟩ := rResp_taken i h hf
    refine .inr ⟨?_, .closed hst.1 hst.2⟩
    simpa [AxiLiteXbar.finalR, hv] using txn n
  | false =>
    obtain ⟨hst, hfin⟩ := rResp_held i h hf
    refine .inl (.resp hst.1 fun t => ?_)
    simpa [hfin, h3] using txn t

theorem RPhase.step {cur : List (ℕ × REvent)} (h : RPhase diag s n cur)
    (hd : ∀ a, diag (n + 1) a = (s.step true i).r.diagCsr (s.step true i).w.lastDecerrWaddr a) :
    RNext diag s i n cur := by
  cases h with
  | closed h hv => exact closed_step i n h hv
  | issue h hv _ sel ht hp => exact issue_step i n h hv sel ht hp hd
  | issueSlave h hv hi sel t hp => exact issueSlave_step i n h hv hi sel t hp
  | wait h hv sel hp t t' => exact wait_step i n h hv sel hp t t'
  | resp h txn => exact resp_step i n h txn

end Edge

end RiscvSoc.Crossbar
