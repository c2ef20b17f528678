import RiscvSoc.Crossbar.PulseWrite
/-!
# Reads from slaves that answer with pulses

The same cycles as for a write, counted from the one that takes the address.
-/

namespace RiscvSoc.Crossbar

open Sync

/-- A whole read, with its cycles: `c` is that of the address. -/
inductive PulseReadTxn (diag : ℕ → Word32 → Word32) : List (ℕ × REvent) → Prop
  | slave {a p} (m : Master) (hp : decodeAddr a = .dev p) (c : ℕ) (d : Word32) (resp : Resp) (t : ℕ) (ht : c + 4 ≤ t) :
      PulseReadTxn diag [(c, .ar m a), (c + 1, .slaveAr p a), (c + 2, .slaveR p d resp), (t, .r m d resp)]
  | err {a} (m : Master) (ha : decodeAddr a = .err) (c t : ℕ) (ht : c + 3 ≤ t) :
      PulseReadTxn diag [(c, .ar m a), (t, .r m 0 axiRespDecerr)]
  | csr {a} (m : Master) (ha : decodeAddr a = .xbarCsr) (c t : ℕ) (ht : c + 3 ≤ t) :
      PulseReadTxn diag [(c, .ar m a), (t, .r m (diag (c + 2) a) axiRespOkay)]

/-- The first event of `l` took place in cycle `c`. -/
def FirstAt {ε : Type*} (l : List (ℕ × ε)) (c : ℕ) : Prop := ∃ e, l.head? = some (c, e)

variable {bank : Slave → PulseSlave}

/-- `cur` is the part of the open read that has taken place before cycle `n`. -/
inductive PulseRPhase (diag : ℕ → Word32 → Word32) (s : Fabric bank) (n : ℕ) : List (ℕ × REvent) → Prop
  | idle (h : s.xbar.r.rState = .idle) (hv : s.xbar.r.sRvalid = false) : PulseRPhase diag s n []
  | issue {c} (h : s.xbar.r.rState = .issue) (hv : s.xbar.r.sRvalid = false) (hi : s.xbar.r.rIssuedAr = false)
      (sel : s.xbar.r.rSel = decodeAddr s.xbar.r.rAddrLat) (hn : n = c + 1) :
      PulseRPhase diag s n [(c, .ar (granted s.xbar.r.rGrant) s.xbar.r.rAddrLat)]
  | wait {c p} (h : s.xbar.r.rState = .wait) (hv : s.xbar.r.sRvalid = false)
      (sel : s.xbar.r.rSel = decodeAddr s.xbar.r.rAddrLat) (hp : s.xbar.r.rSel = .dev p)
      (hr : (s.devRsp p).rvalid = true) (hn : n = c + 2) :
      PulseRPhase diag s n
        [(c, .ar (granted s.xbar.r.rGrant) s.xbar.r.rAddrLat), (c + 1, .slaveAr p s.xbar.r.rAddrLat)]
  | resp {l c} (h : s.xbar.r.rState = .resp) (hc : FirstAt l c) (hn : s.xbar.r.sRvalid = false → n ≤ c + 3)
      (txn : ∀ t, (if s.xbar.r.sRvalid then n else n + 1) ≤ t →
        PulseReadTxn diag (l ++ [(t, .r (granted s.xbar.r.rGrant) s.xbar.finalR.1 s.xbar.finalR.2)])) :
      PulseRPhase diag s n l

/-! ## One edge -/

section Edge

variable {diag : ℕ → Word32 → Word32} {s : Fabric bank} (i : FabricIn bank) (n : ℕ)

/-- The read events of a cycle of the whole. -/
def Fabric.rEvents (s : Fabric bank) (i : FabricIn bank) : List REvent := Crossbar.rEvents s.xbar (s.xbarIn i)

/-- The two outcomes of an edge: the open read goes on, or it ends. -/
def PulseRNext (diag : ℕ → Word32 → Word32) (s : Fabric bank) (i : FabricIn bank) (n : ℕ)
    (cur : List (ℕ × REvent)) : Prop :=
  let es := (s.rEvents i).map (n, ·)
  PulseRPhase diag (s.step true i) (n + 1) (cur ++ es) ∨
    (PulseReadTxn diag (cur ++ es) ∧ PulseRPhase diag (s.step true i) (n + 1) [])

theorem PulseRPhase.idle_step (h : s.xbar.r.rState = .idle) (hv : s.xbar.r.sRvalid = false) :
    PulseRNext diag s i n [] := by
  left
  rw [Fabric.rEvents, rEvents_idle h hv]
  cases ha : (s.xbar.r.cur (s.xbarIn i)).arvalid with
  | false =>
    obtain ⟨hst, hbv⟩ := rIdle_next (s.xbarIn i) h ha
    exact .idle hst (hbv.trans hv)
  | true =>
    obtain ⟨⟨h1, h3⟩, h2, ⟨h4, h5⟩, h6⟩ := rTake_next (s.xbarIn i) h ha
    rw [← h6, if_pos rfl, ← h4]
    exact .issue h1 (h2.trans hv) h3 h5 rfl

theorem PulseRPhase.issue_step {c : ℕ} (h : s.xbar.r.rState = .issue) (hv : s.xbar.r.sRvalid = false)
    (hi : s.xbar.r.rIssuedAr = false) (sel : s.xbar.r.rSel = decodeAddr s.xbar.r.rAddrLat) (hn : n = c + 1)
    (hd : ∀ a, diag (n + 1) a = (s.step true i).xbar.r.diagCsr (s.step true i).xbar.w.lastDecerrWaddr a) :
    PulseRNext diag s i n [(c, .ar (granted s.xbar.r.rGrant) s.xbar.r.rAddrLat)] := by
  obtain ⟨⟨h1, h2⟩, h3⟩ := rLatch_next (s.xbarIn i) (s := s.xbar) (by simp [h])
  rw [← Fabric.step_xbar] at h1 h2 h3
  -- the crossbar answers itself, without an event
  have hno (hs : s.xbar.r.noSlave = true) : (s.step true i).xbar.r.rState = .resp ∧
      (s.step true i).xbar.r.sRvalid = false ∧ s.rEvents i = [] := by
    obtain ⟨hst, hbv⟩ := rIssueNone_next (s.xbarIn i) h hs
    exact ⟨hst, hbv.trans hv, by rw [Fabric.rEvents, rEvents_issueNone h hv hs]⟩
  left
  subst hn
  cases hp : s.xbar.r.rSel with
  | dev p =>
    obtain ⟨-, -, hra⟩ := s.ready p
    have hev : s.rEvents i = [.slaveAr p s.xbar.r.rAddrLat] := by
      rw [Fabric.rEvents, rEvents_issue h hv hp]
      simp [hi, ReadPath.slaveArready, hp, hra]
    obtain ⟨hst, -, hbv⟩ := rIssue_next (s.xbarIn i) h (by simp [ReadPath.noSlave, hp])
    simp only [ReadPath.slaveArready, hp, Fabric.xbarIn_down, hra, Bool.or_true, if_true] at hst
    have hr : ((s.step true i).devRsp p).rvalid = true := by
      rw [Fabric.rvalid_next]
      simp [AxiLiteXbar.req, h, hp, hi]
    rw [hev, ← h1, ← h3]
    rw [← h1, ← h2] at sel
    exact .wait hst (hbv.trans hv) sel (h2.trans hp) hr rfl
  | xbarCsr =>
    obtain ⟨hst, hv', hev⟩ := hno (by simp [ReadPath.noSlave, hp])
    rw [hev]
    refine .resp hst (c := c) ⟨_, rfl⟩ (by omega) fun t ht => ?_
    simp only [hv', Bool.false_eq_true, if_false] at ht
    have htxn := @PulseReadTxn.csr diag _ (granted s.xbar.r.rGrant) (sel.symm.trans hp) c t (by omega)
    simpa [AxiLiteXbar.finalR, h1, h2, hp, hv', h3, hd] using htxn
  | err =>
    obtain ⟨hst, hv', hev⟩ := hno (by simp [ReadPath.noSlave, hp])
    rw [hev]
    refine .resp hst (c := c) ⟨_, rfl⟩ (by omega) fun t ht => ?_
    simp only [hv', Bool.false_eq_true, if_false] at ht
    have htxn := @PulseReadTxn.err diag _ (granted s.xbar.r.rGrant) (sel.symm.trans hp) c t (by omega)
    simpa [AxiLiteXbar.finalR, h1, h2, hp, hv', h3] using htxn

theorem PulseRPhase.wait_step {c : ℕ} {p : Slave} (h : s.xbar.r.rState = .wait) (hv : s.xbar.r.sRvalid = false)
    (sel : s.xbar.r.rSel = decodeAddr s.xbar.r.rAddrLat) (hp : s.xbar.r.rSel = .dev p)
    (hr : (s.devRsp p).rvalid = true) (hn : n = c + 2) :
    PulseRNext diag s i n
      [(c, .ar (granted s.xbar.r.rGrant) s.xbar.r.rAddrLat), (c + 1, .slaveAr p s.xbar.r.rAddrLat)] := by
  obtain ⟨⟨-, h2⟩, h3⟩ := rLatch_next (s.xbarIn i) (s := s.xbar) (by simp [h])
  have hsv : s.xbar.r.slaveRvalid (s.xbarIn i) = true := by
    simpa [ReadPath.slaveRvalid, hp] using hr
  obtain ⟨hst, hbv, hdata⟩ := rWait_next (s.xbarIn i) h
  rw [hsv] at hst
  rw [hv] at hbv
  left
  subst hn
  rw [Fabric.rEvents, rEvents_wait h hv hp, if_pos hsv]
  refine .resp hst (c := c) ⟨_, rfl⟩ (by omega) fun t ht => ?_
  simp only [Fabric.step_xbar, hbv, Bool.false_eq_true, if_false] at ht
  have htxn := @PulseReadTxn.slave diag _ _ (granted s.xbar.r.rGrant) (sel.symm.trans hp) c
    (s.xbar.r.slaveRdata (s.xbarIn i)) (s.xbar.r.slaveRresp (s.xbarIn i)) t (by omega)
  simpa [Fabric.step_xbar, AxiLiteXbar.finalR, h2, hp, hdata hsv, h3] using htxn

theorem PulseRPhase.resp_step {l : List (ℕ × REvent)} {c : ℕ} (h : s.xbar.r.rState = .resp) (hc : FirstAt l c)
    (txn : ∀ t, (if s.xbar.r.sRvalid then n else n + 1) ≤ t →
      PulseReadTxn diag (l ++ [(t, .r (granted s.xbar.r.rGrant) s.xbar.finalR.1 s.xbar.finalR.2)])) :
    PulseRNext diag s i n l := by
  obtain ⟨-, h3⟩ := rLatch_next (s.xbarIn i) (s := s.xbar) (by simp [h])
  unfold PulseRNext
  rw [Fabric.rEvents, rEvents_resp h]
  cases hf : s.xbar.r.sRvalid && s.xbar.r.curRready (s.xbarIn i) with
  | true =>
    obtain ⟨hst, hv⟩ := rResp_taken (s.xbarIn i) h hf
    refine .inr ⟨?_, .idle hst.1 hst.2⟩
    simpa [AxiLiteXbar.finalR, hv] using txn n (by simp [hv])
  | false =>
    obtain ⟨⟨hst, hbv⟩, hfin⟩ := rResp_held (s.xbarIn i) h hf
    refine .inl (.resp hst (c := c) (by simpa using hc) (fun hv => by simp [Fabric.step_xbar, hbv] at hv) fun t ht => ?_)
    simp only [Fabric.step_xbar, hbv, if_true] at ht
    simpa [Fabric.step_xbar, hfin, h3] using txn t (by split <;> omega)

theorem PulseRPhase.step {cur : List (ℕ × REvent)} (h : PulseRPhase diag s n cur)
    (hd : ∀ a, diag (n + 1) a = (s.step true i).xbar.r.diagCsr (s.step true i).xbar.w.lastDecerrWaddr a) :
    PulseRNext diag s i n cur := by
  cases h with
  | idle h hv => exact idle_step i n h hv
  | issue h hv hi sel hn => exact issue_step i n h hv hi sel hn hd
  | wait h hv sel hp hr hn => exact wait_step i n h hv sel hp hr hn
  | resp h hc _ txn => exact resp_step i n h hc txn

end Edge

end RiscvSoc.Crossbar
