import RiscvSoc.Crossbar.Model
import RiscvSoc.Lib.Sync
/-!
# Write transactions of the crossbar

The handshakes of the write channels, logged at the ports, and what a whole
write transaction is in such a log. `Phase` ties the registers to the part of
the transaction that is in the log already.
-/

namespace RiscvSoc.Crossbar

open Sync

/-! ## Events -/

/-- A handshake on a write channel: at a master's port, or at a slave's. -/
inductive WEvent
  | aw (m : Master) (addr : Word32)
  | w (m : Master) (data : Word32) (strb : BitVec 4)
  | slaveAw (p : Slave) (addr : Word32)
  | slaveW (p : Slave) (data : Word32) (strb : BitVec 4)
  | slaveB (p : Slave) (resp : Resp)
  | b (m : Master) (resp : Resp)
  deriving DecidableEq, Repr

def masters : List Master := [.s0, .s1]

def slaves : List Slave := [.rom, .ram, .timer, .wdt, .uart, .i2c, .spi, .aes, .dma]

/-- The write handshakes of a cycle at all eleven ports. -/
def wEvents (s : AxiLiteXbar) (i : XbarIn) : List WEvent :=
  masters.flatMap (fun m =>
    whenFire (i.up m).awvalid (s.rsp i m).awready (.aw m (i.up m).awaddr) ++
    whenFire (i.up m).wvalid (s.rsp i m).wready (.w m (i.up m).wdata (i.up m).wstrb)) ++
  slaves.flatMap (fun p =>
    whenFire (s.req p).awvalid (i.down p).awready (.slaveAw p (s.req p).awaddr) ++
    whenFire (s.req p).wvalid (i.down p).wready (.slaveW p (s.req p).wdata (s.req p).wstrb) ++
    whenFire (i.down p).bvalid (s.req p).bready (.slaveB p (i.down p).bresp)) ++
  masters.flatMap (fun m => whenFire (s.rsp i m).bvalid (i.up m).bready (.b m (s.rsp i m).bresp))

/-! ## Transactions -/

/-- The two beats of a write at a master's port, in either order. -/
inductive UpBeats (m : Master) (a d : Word32) (sb : BitVec 4) : List (ℕ × WEvent) → Prop
  | awFirst (t t' : ℕ) : UpBeats m a d sb [(t, .aw m a), (t', .w m d sb)]
  | wFirst (t t' : ℕ) : UpBeats m a d sb [(t, .w m d sb), (t', .aw m a)]

/-- The two beats at a slave's port, in either order. -/
inductive DownBeats (p : Slave) (a d : Word32) (sb : BitVec 4) : List (ℕ × WEvent) → Prop
  | awFirst (t t' : ℕ) : DownBeats p a d sb [(t, .slaveAw p a), (t', .slaveW p d sb)]
  | wFirst (t t' : ℕ) : DownBeats p a d sb [(t, .slaveW p d sb), (t', .slaveAw p a)]

/-- A whole write transaction: both beats from one master, both at the slave its
address decodes to, that slave's response, and the same response to the master.
Without a slave there is only the crossbar's own response. -/
inductive WriteTxn : List (ℕ × WEvent) → Prop
  | slave {m a d sb p up down} (hup : UpBeats m a d sb up) (hp : decodeAddr a = .dev p)
      (hdown : DownBeats p a d sb down) (t t' : ℕ) (resp : Resp) :
      WriteTxn (up ++ down ++ [(t, .slaveB p resp)] ++ [(t', .b m resp)])
  | err {m a d sb up} (hup : UpBeats m a d sb up) (ha : decodeAddr a = .err) (t : ℕ) :
      WriteTxn (up ++ [(t, .b m axiRespDecerr)])
  | csr {m a d sb up} (hup : UpBeats m a d sb up) (ha : decodeAddr a = .xbarCsr) (t : ℕ) :
      WriteTxn (up ++ [(t, .b m axiRespSlverr)])

/-! ## The open transaction -/

namespace WritePath

variable (s : WritePath)

/-- The response the crossbar gives, or is about to give, in `W_RESP`. -/
def finalResp : Resp :=
  if s.wSel = .err && !s.sBvalid then axiRespDecerr
  else if s.wSel = .xbarCsr && !s.sBvalid then axiRespSlverr
  else s.sBresp

/-- The slave's beats that are through, by the two `issued` flags. -/
inductive Issued (p : Slave) : List (ℕ × WEvent) → Prop
  | none (h : s.wIssuedAw = false) (h' : s.wIssuedW = false) : Issued p []
  | aw (h : s.wIssuedAw = true) (h' : s.wIssuedW = false) (t : ℕ) : Issued p [(t, .slaveAw p s.wAddrLat)]
  | w (h : s.wIssuedAw = false) (h' : s.wIssuedW = true) (t : ℕ) :
      Issued p [(t, .slaveW p s.wDataLat s.wStrbLat)]

/-- The latched transaction, whose beats are `up`. -/
structure Latched (up : List (ℕ × WEvent)) : Prop where
  beats : UpBeats (granted s.wGrant) s.wAddrLat s.wDataLat s.wStrbLat up
  sel : s.wSel = decodeAddr s.wAddrLat
  have_none : s.wHaveAw = false ∧ s.wHaveW = false

/-- `cur` is the part of the open transaction that has taken place. -/
inductive Phase : List (ℕ × WEvent) → Prop
  | closed (h : s.wState = .idle) (ha : s.wHaveAw = false) (hw : s.wHaveW = false) (hb : s.sBvalid = false) : Phase []
  | gotAw (h : s.wState = .idle) (ha : s.wHaveAw = true) (hw : s.wHaveW = false) (hb : s.sBvalid = false)
      (sel : s.wSel = decodeAddr s.wAddrLat) (t : ℕ) : Phase [(t, .aw (granted s.wGrant) s.wAddrLat)]
  | gotW (h : s.wState = .idle) (ha : s.wHaveAw = false) (hw : s.wHaveW = true) (hb : s.sBvalid = false) (t : ℕ) :
      Phase [(t, .w (granted s.wGrant) s.wDataLat s.wStrbLat)]
  | issueSlave {up down p} (h : s.wState = .issue) (hb : s.sBvalid = false) (hl : s.Latched up)
      (hp : s.wSel = .dev p) (hi : s.Issued p down) : Phase (up ++ down)
  | issueNone {up} (h : s.wState = .issue) (hb : s.sBvalid = false) (hl : s.Latched up)
      (hp : s.noSlave = true) : Phase up
  | wait {up down p} (h : s.wState = .wait) (hb : s.sBvalid = false) (hl : s.Latched up) (hp : s.wSel = .dev p)
      (hd : DownBeats p s.wAddrLat s.wDataLat s.wStrbLat down) : Phase (up ++ down)
  | resp {l} (h : s.wState = .resp) (hh : s.wHaveAw = false ∧ s.wHaveW = false)
      (txn : ∀ t, WriteTxn (l ++ [(t, .b (granted s.wGrant) s.finalResp)])) : Phase l

end WritePath

/-! ## The events of each state -/

theorem master_cases (m : Master) : m = .s0 ∨ m = .s1 := by cases m <;> simp

section Events

variable {s : AxiLiteXbar} {i : XbarIn}

theorem wEvents_idle (h : s.w.wState = .idle) (hb : s.w.sBvalid = false) :
    wEvents s i =
      (if s.w.awFire i then [.aw (granted (s.w.wGrantEff i)) (s.w.cur i).awaddr] else []) ++
      (if s.w.wFire i then [.w (granted (s.w.wGrantEff i)) (s.w.cur i).wdata (s.w.cur i).wstrb] else []) := by
  simp only [wEvents, masters, slaves, AxiLiteXbar.rsp, AxiLiteXbar.req, h, hb, whenFire, WritePath.awFire,
    WritePath.wFire, WritePath.cur]
  rcases master_cases (granted (s.w.wGrantEff i)) with hg | hg <;> simp [hg]

theorem wEvents_issue {p : Slave} (h : s.w.wState = .issue) (hb : s.w.sBvalid = false) (hp : s.w.wSel = .dev p) :
    wEvents s i =
      (if !s.w.wIssuedAw && s.w.slaveAwready i then [.slaveAw p s.w.wAddrLat] else []) ++
      (if !s.w.wIssuedW && s.w.slaveWready i then [.slaveW p s.w.wDataLat s.w.wStrbLat] else []) := by
  simp only [wEvents, masters, slaves, AxiLiteXbar.rsp, AxiLiteXbar.req, h, hb, hp, whenFire,
    WritePath.curAwready, WritePath.curWready, WritePath.slaveAwready, WritePath.slaveWready]
  cases p <;> simp

theorem wEvents_issueNone (h : s.w.wState = .issue) (hb : s.w.sBvalid = false) (hp : s.w.noSlave = true) :
    wEvents s i = [] := by
  simp only [WritePath.noSlave, Bool.or_eq_true, decide_eq_true_eq] at hp
  simp only [wEvents, masters, slaves, AxiLiteXbar.rsp, AxiLiteXbar.req, h, hb, whenFire,
    WritePath.curAwready, WritePath.curWready]
  rcases hp with hp | hp <;> simp [hp]

theorem wEvents_wait {p : Slave} (h : s.w.wState = .wait) (hb : s.w.sBvalid = false) (hp : s.w.wSel = .dev p) :
    wEvents s i = if s.w.slaveBvalid i then [.slaveB p (s.w.slaveBresp i)] else [] := by
  simp only [wEvents, masters, slaves, AxiLiteXbar.rsp, AxiLiteXbar.req, h, hb, hp, whenFire,
    WritePath.curAwready, WritePath.curWready, WritePath.slaveBvalid, WritePath.slaveBresp]
  cases p <;> simp

theorem wEvents_resp (h : s.w.wState = .resp) :
    wEvents s i = if s.w.sBvalid && s.w.curBready i then [.b (granted s.w.wGrant) s.w.sBresp] else [] := by
  simp only [wEvents, masters, slaves, AxiLiteXbar.rsp, AxiLiteXbar.req, h, whenFire,
    WritePath.curAwready, WritePath.curWready, WritePath.curBready]
  rcases master_cases (granted s.w.wGrant) with hg | hg <;> simp [hg]

end Events

/-! ## One edge -/

namespace WritePath

variable {s : WritePath} (i : XbarIn)

/-- The edge in `W_IDLE`: what is latched, and whether both beats are in. -/
theorem idle_next (h : s.wState = .idle) :
    let t := s.step i true
    let both := s.awReadyC i && s.wReadyC i
    (t.wState = if both then .issue else .idle) ∧
      (t.wHaveAw = (s.awReadyC i && !both) ∧ t.wHaveW = (s.wReadyC i && !both)) ∧
      (both = true → t.wIssuedAw = false ∧ t.wIssuedW = false) ∧
      (t.wAddrLat = (if s.awFire i then (s.cur i).awaddr else s.wAddrLat) ∧
        t.wSel = if s.awFire i then decodeAddr (s.cur i).awaddr else s.wSel) ∧
      (t.wDataLat = (if s.wFire i then (s.cur i).wdata else s.wDataLat) ∧
        t.wStrbLat = if s.wFire i then (s.cur i).wstrb else s.wStrbLat) ∧
      t.wGrant = s.wGrantEff i ∧ t.sBvalid = s.sBvalid := by
  simp only [step, h, idleStep, wGrantEff, Bool.not_true, Bool.false_eq_true, if_false]
  generalize s.awReadyC i = ra, s.wReadyC i = rw, s.awFire i = fa, s.wFire i = fw, decodeAddr (s.cur i).awaddr = d
  cases fa <;> cases fw <;> cases ra <;> cases rw <;> simp [h]

/-- Outside `W_IDLE` the latches and the grant do not change. -/
theorem latch_next (h : s.wState ≠ .idle) :
    let t := s.step i true
    (t.wAddrLat = s.wAddrLat ∧ t.wSel = s.wSel) ∧ (t.wDataLat = s.wDataLat ∧ t.wStrbLat = s.wStrbLat) ∧
      t.wGrant = s.wGrant ∧ t.wHaveAw = s.wHaveAw ∧ t.wHaveW = s.wHaveW := by
  cases hs : s.wState with
  | idle => exact absurd hs h
  | issue => cases hp : s.noSlave <;> simp [step, wOpen, hs, issueStep, hp]
  | wait => cases hv : s.slaveBvalid i <;> simp [step, wOpen, hs, waitStep, hv]
  | resp => cases hf : s.sBvalid && s.curBready i <;> simp [step, wOpen, hs, respStep, hf]

theorem Latched.next {up : List (ℕ × WEvent)} (hl : s.Latched up) (h : s.wState ≠ .idle) :
    (s.step i true).Latched up := by
  obtain ⟨⟨h1, h2⟩, ⟨h3, h4⟩, h5, h6, h7⟩ := latch_next i h
  constructor
  · rw [h1, h3, h4, h5]; exact hl.beats
  · rw [h1, h2]; exact hl.sel
  · rw [h6, h7]; exact hl.have_none

theorem issue_next (h : s.wState = .issue) (hp : s.noSlave = false) :
    let t := s.step i true
    (t.wState = if (s.wIssuedAw || s.slaveAwready i) && (s.wIssuedW || s.slaveWready i) then .wait else .issue) ∧
      (t.wIssuedAw = (s.wIssuedAw || s.slaveAwready i) ∧ t.wIssuedW = (s.wIssuedW || s.slaveWready i)) ∧
      t.sBvalid = s.sBvalid := by
  simp [step, h, issueStep, hp]

/-- With no slave behind it a write goes on to its response. -/
theorem issueNone_next (h : s.wState = .issue) (hp : s.noSlave = true) :
    (s.step i true).wState = .resp ∧ (s.step i true).sBvalid = s.sBvalid := by
  simp [step, h, issueStep, hp]

theorem wait_next (h : s.wState = .wait) :
    let t := s.step i true
    (t.wState = if s.slaveBvalid i then .resp else .wait) ∧ t.sBvalid = s.sBvalid ∧
      (s.slaveBvalid i = true → t.sBresp = s.slaveBresp i) := by
  cases hv : s.slaveBvalid i <;> simp [step, h, waitStep, hv]

/-- The edge in `W_RESP` at which the master takes the response. -/
theorem resp_taken (h : s.wState = .resp) (hf : (s.sBvalid && s.curBready i) = true) :
    ((s.step i true).wState = .idle ∧ (s.step i true).sBvalid = false) ∧ s.sBvalid = true := by
  rw [Bool.and_eq_true] at hf
  simp [step, h, respStep, hf]

/-- At the others it is on offer from then on, as it is. -/
theorem resp_held (h : s.wState = .resp) (hf : (s.sBvalid && s.curBready i) = false) :
    ((s.step i true).wState = .resp ∧ (s.step i true).sBvalid = true) ∧ (s.step i true).finalResp = s.finalResp := by
  simp [step, h, respStep, hf, finalResp]

/-- With the beats in, the next state presents them to the slave, if there is one. -/
theorem phase_issue {s : WritePath} {up : List (ℕ × WEvent)} (h : s.wState = .issue) (hb : s.sBvalid = false)
    (hi : s.wIssuedAw = false ∧ s.wIssuedW = false) (hl : s.Latched up) : s.Phase up := by
  cases hp : s.wSel with
  | dev p => simpa using Phase.issueSlave h hb hl hp (.none hi.1 hi.2)
  | xbarCsr => exact .issueNone h hb hl (by simp [noSlave, hp])
  | err => exact .issueNone h hb hl (by simp [noSlave, hp])

end WritePath

section Edge

variable {s : AxiLiteXbar} (i : XbarIn) (n : ℕ)

/-- At the edge the open transaction goes on. -/
def WGoes (s : AxiLiteXbar) (i : XbarIn) (n : ℕ) (cur : List (ℕ × WEvent)) : Prop :=
  (s.w.step i true).Phase (cur ++ (wEvents s i).map (n, ·))

/-- The two outcomes of an edge: the open transaction goes on, or it ends. -/
def WNext (s : AxiLiteXbar) (i : XbarIn) (n : ℕ) (cur : List (ℕ × WEvent)) : Prop :=
  WGoes s i n cur ∨ (WriteTxn (cur ++ (wEvents s i).map (n, ·)) ∧ (s.w.step i true).Phase [])

theorem closed_step (h : s.w.wState = .idle) (ha : s.w.wHaveAw = false) (hw : s.w.wHaveW = false)
    (hb : s.w.sBvalid = false) : WGoes s i n [] := by
  obtain ⟨hst, ⟨hha, hhw⟩, his, ⟨hal, hsl⟩, ⟨hdl, hsb⟩, hg, hbv⟩ := WritePath.idle_next i h
  rw [WGoes, wEvents_idle h hb, ← hg]
  simp only [WritePath.awReadyC, WritePath.wReadyC, ha, hw, Bool.false_or] at hst hha hhw his
  cases hfa : s.w.awFire i <;> cases hfw : s.w.wFire i <;>
    simp [hfa, hfw] at hst hha hhw his hal hsl hdl hsb ⊢
  · exact .closed hst hha hhw (hbv.trans hb)
  · rw [← hdl, ← hsb]
    exact .gotW hst hha hhw (hbv.trans hb) n
  · rw [← hal] at hsl ⊢
    exact .gotAw hst hha hhw (hbv.trans hb) hsl n
  · rw [← hal] at hsl ⊢
    rw [← hdl, ← hsb]
    exact WritePath.phase_issue hst (hbv.trans hb) his ⟨.awFirst n n, hsl, hha, hhw⟩

/-- With a beat in, the grant is locked: only its master's other beat can follow. -/
theorem gotAw_step (h : s.w.wState = .idle) (ha : s.w.wHaveAw = true) (hw : s.w.wHaveW = false)
    (hb : s.w.sBvalid = false) (sel : s.w.wSel = decodeAddr s.w.wAddrLat) (t : ℕ) :
    WGoes s i n [(t, .aw (granted s.w.wGrant) s.w.wAddrLat)] := by
  obtain ⟨hst, ⟨hha, hhw⟩, his, ⟨hal, hsl⟩, ⟨hdl, hsb⟩, hg, hbv⟩ := WritePath.idle_next i h
  have hfa : s.w.awFire i = false := by simp [WritePath.awFire, WritePath.curAwready, ha]
  have hlock : s.w.wGrantEff i = s.w.wGrant := by simp [WritePath.wGrantEff, WritePath.wOpen, ha]
  rw [WGoes, wEvents_idle h hb, ← hlock, ← hg]
  cases hfw : s.w.wFire i <;>
    simp [WritePath.awReadyC, WritePath.wReadyC, ha, hw, hfa, hfw] at hst hha hhw his hal hsl hdl hsb ⊢
  · rw [← hal, ← hsl] at sel
    rw [← hal]
    exact .gotAw hst hha hhw (hbv.trans hb) sel t
  · rw [← hal, ← hsl] at sel
    rw [← hal, ← hdl, ← hsb]
    exact WritePath.phase_issue hst (hbv.trans hb) his ⟨.awFirst t n, sel, hha, hhw⟩

theorem gotW_step (h : s.w.wState = .idle) (ha : s.w.wHaveAw = false) (hw : s.w.wHaveW = true)
    (hb : s.w.sBvalid = false) (t : ℕ) :
    WGoes s i n [(t, .w (granted s.w.wGrant) s.w.wDataLat s.w.wStrbLat)] := by
  obtain ⟨hst, ⟨hha, hhw⟩, his, ⟨hal, hsl⟩, ⟨hdl, hsb⟩, hg, hbv⟩ := WritePath.idle_next i h
  have hfw : s.w.wFire i = false := by simp [WritePath.wFire, WritePath.curWready, hw]
  have hlock : s.w.wGrantEff i = s.w.wGrant := by simp [WritePath.wGrantEff, WritePath.wOpen, hw]
  rw [WGoes, wEvents_idle h hb, ← hlock, ← hg]
  cases hfa : s.w.awFire i <;>
    simp [WritePath.awReadyC, WritePath.wReadyC, ha, hw, hfa, hfw] at hst hha hhw his hal hsl hdl hsb ⊢
  · rw [← hdl, ← hsb]
    exact .gotW hst hha hhw (hbv.trans hb) t
  · rw [← hal] at hsl ⊢
    rw [← hdl, ← hsb]
    exact WritePath.phase_issue hst (hbv.trans hb) his ⟨.wFirst t n, hsl, hha, hhw⟩

theorem issueSlave_step {up down : List (ℕ × WEvent)} {p : Slave} (h : s.w.wState = .issue)
    (hb : s.w.sBvalid = false) (hl : s.w.Latched up) (hp : s.w.wSel = .dev p) (hi : s.w.Issued p down) :
    WGoes s i n (up ++ down) := by
  have hne : s.w.wState ≠ .idle := by simp [h]
  obtain ⟨⟨h1, h2⟩, ⟨h3, h4⟩, -⟩ := WritePath.latch_next i hne
  obtain ⟨hst, ⟨hia, hiw⟩, hbv⟩ := WritePath.issue_next i h (by simp [WritePath.noSlave, hp])
  have hbv' := hbv.trans hb
  have hp' := h2.trans hp
  rw [WGoes, wEvents_issue h hb hp, List.append_assoc]
  -- what the slave has taken before, and what it takes in this cycle
  cases hi with
  | none ha hw =>
    cases hra : s.w.slaveAwready i <;> cases hrw : s.w.slaveWready i <;>
      simp [ha, hw, hra, hrw] at hst hia hiw ⊢
    · simpa using WritePath.Phase.issueSlave hst hbv' (hl.next i hne) hp' (.none hia hiw)
    · rw [← h3, ← h4]
      exact .issueSlave hst hbv' (hl.next i hne) hp' (.w hia hiw n)
    · rw [← h1]
      exact .issueSlave hst hbv' (hl.next i hne) hp' (.aw hia hiw n)
    · rw [← h1, ← h3, ← h4]
      exact .wait hst hbv' (hl.next i hne) hp' (.awFirst n n)
  | aw ha hw t =>
    cases hrw : s.w.slaveWready i <;> simp [ha, hw, hrw] at hst hia hiw ⊢
    · rw [← h1]
      exact .issueSlave hst hbv' (hl.next i hne) hp' (.aw hia hiw t)
    · rw [← h1, ← h3, ← h4]
      exact .wait hst hbv' (hl.next i hne) hp' (.awFirst t n)
  | w ha hw t =>
    cases hra : s.w.slaveAwready i <;> simp [ha, hw, hra] at hst hia hiw ⊢
    · rw [← h3, ← h4]
      exact .issueSlave hst hbv' (hl.next i hne) hp' (.w hia hiw t)
    · rw [← h1, ← h3, ← h4]
      exact .wait hst hbv' (hl.next i hne) hp' (.wFirst t n)

theorem issueNone_step {up : List (ℕ × WEvent)} (h : s.w.wState = .issue) (hb : s.w.sBvalid = false)
    (hl : s.w.Latched up) (hp : s.w.noSlave = true) : WGoes s i n up := by
  have hl' := hl.next i (by simp [h])
  obtain ⟨⟨-, h2⟩, -⟩ := WritePath.latch_next i (s := s.w) (by simp [h])
  obtain ⟨hst, hbv⟩ := WritePath.issueNone_next i h hp
  rw [WGoes, wEvents_issueNone h hb hp]
  simp only [List.map_nil, List.append_nil]
  refine .resp hst hl'.have_none fun t => ?_
  have hsel := hl'.sel
  simp only [WritePath.noSlave, Bool.or_eq_true, decide_eq_true_eq] at hp
  rcases hp with hp | hp <;> rw [h2, hp] at hsel <;>
    simp only [WritePath.finalResp, hbv, hb, h2, hp, reduceCtorEq, decide_true, decide_false, Bool.not_false, Bool.true_and,
      Bool.false_and, if_true, if_false, Bool.false_eq_true]
  · exact .err hl'.beats hsel.symm t
  · exact .csr hl'.beats hsel.symm t

theorem wait_step {up down : List (ℕ × WEvent)} {p : Slave} (h : s.w.wState = .wait) (hb : s.w.sBvalid = false)
    (hl : s.w.Latched up) (hp : s.w.wSel = .dev p)
    (hd : DownBeats p s.w.wAddrLat s.w.wDataLat s.w.wStrbLat down) : WGoes s i n (up ++ down) := by
  have hne : s.w.wState ≠ .idle := by simp [h]
  have hl' := hl.next i hne
  obtain ⟨⟨h1, h2⟩, ⟨h3, h4⟩, -⟩ := WritePath.latch_next i hne
  rw [← h1, ← h3, ← h4] at hd
  have hp' := h2.trans hp
  obtain ⟨hst, hbv, hresp⟩ := WritePath.wait_next i h
  rw [WGoes, wEvents_wait h hb hp]
  cases hv : s.w.slaveBvalid i with
  | false =>
    rw [hv] at hst
    simpa using WritePath.Phase.wait hst (hbv.trans hb) hl' hp' hd
  | true =>
    rw [hv] at hst
    refine .resp hst hl'.have_none fun t => ?_
    have hsel := hl'.sel
    rw [hp'] at hsel
    simpa [WritePath.finalResp, hp', hresp hv] using WriteTxn.slave hl'.beats hsel.symm hd n t (s.w.slaveBresp i)

theorem resp_step {l : List (ℕ × WEvent)} (h : s.w.wState = .resp)
    (hh : s.w.wHaveAw = false ∧ s.w.wHaveW = false)
    (txn : ∀ t, WriteTxn (l ++ [(t, .b (granted s.w.wGrant) s.w.finalResp)])) : WNext s i n l := by
  obtain ⟨⟨-, h2⟩, -, h5, h6, h7⟩ := WritePath.latch_next i (s := s.w) (by simp [h])
  rw [WNext, WGoes, wEvents_resp h]
  cases hf : s.w.sBvalid && s.w.curBready i with
  | true =>
    obtain ⟨hst, hb⟩ := WritePath.resp_taken i h hf
    refine .inr ⟨?_, .closed hst.1 (h6.trans hh.1) (h7.trans hh.2) hst.2⟩
    simpa [WritePath.finalResp, hb] using txn n
  | false =>
    obtain ⟨hst, hfin⟩ := WritePath.resp_held i h hf
    refine .inl (.resp hst.1 ⟨h6.trans hh.1, h7.trans hh.2⟩ fun t => ?_)
    simpa [hfin, h5] using txn t

theorem phase_step {cur : List (ℕ × WEvent)} (h : s.w.Phase cur) : WNext s i n cur := by
  cases h with
  | closed h ha hw hb => exact .inl (closed_step i n h ha hw hb)
  | gotAw h ha hw hb sel t => exact .inl (gotAw_step i n h ha hw hb sel t)
  | gotW h ha hw hb t => exact .inl (gotW_step i n h ha hw hb t)
  | issueSlave h hb hl hp hi => exact .inl (issueSlave_step i n h hb hl hp hi)
  | issueNone h hb hl hp => exact .inl (issueNone_step i n h hb hl hp)
  | wait h hb hl hp hd => exact .inl (wait_step i n h hb hl hp hd)
  | resp h hh txn => exact resp_step i n h hh txn

end Edge

/-! ## What is left of the open part -/

section Open

variable {s : WritePath} {cur : List (ℕ × WEvent)}

/-- A response is on offer only at the end of a transaction of the granted master. -/
theorem Phase_bvalid (h : s.Phase cur) (hb : s.sBvalid = true) (t : ℕ) :
    WriteTxn (cur ++ [(t, .b (granted s.wGrant) s.sBresp)]) := by
  cases h with
  | closed _ _ _ h | gotAw _ _ _ h | gotW _ _ _ h | issueSlave _ h | issueNone _ h | wait _ h => simp [h] at hb
  | resp _ _ txn => simpa [WritePath.finalResp, hb] using txn t

theorem UpBeats.exists_txn {m : Master} {a d : Word32} {sb : BitVec 4} {up : List (ℕ × WEvent)}
    (h : UpBeats m a d sb up) : ∃ rest, WriteTxn (up ++ rest) := by
  cases ha : decodeAddr a with
  | dev p => exact ⟨_, by simpa using WriteTxn.slave h ha (.awFirst 0 0) 0 0 axiRespOkay⟩
  | xbarCsr => exact ⟨_, .csr h ha 0⟩
  | err => exact ⟨_, .err h ha 0⟩

theorem Issued_extends {p : Slave} {down : List (ℕ × WEvent)} (h : s.Issued p down) :
    ∃ more, DownBeats p s.wAddrLat s.wDataLat s.wStrbLat (down ++ more) := by
  cases h with
  | none => exact ⟨_, .awFirst 0 0⟩
  | aw _ _ t => exact ⟨[_], .awFirst t 0⟩
  | w _ _ t => exact ⟨[_], .wFirst t 0⟩

/-- The open part can always become a whole transaction. -/
theorem Phase_exists_txn (h : s.Phase cur) : ∃ rest, WriteTxn (cur ++ rest) := by
  cases h with
  | closed =>
    obtain ⟨rest, hr⟩ := (@UpBeats.awFirst .s0 0 0 0 0 0).exists_txn
    exact ⟨_ :: _ :: rest, hr⟩
  | gotAw _ _ _ _ _ t =>
    obtain ⟨rest, hr⟩ := (@UpBeats.awFirst (granted s.wGrant) s.wAddrLat 0 0 t 0).exists_txn
    exact ⟨_ :: rest, hr⟩
  | gotW _ _ _ _ t =>
    obtain ⟨rest, hr⟩ := (@UpBeats.wFirst (granted s.wGrant) 0 s.wDataLat s.wStrbLat t 0).exists_txn
    exact ⟨_ :: rest, hr⟩
  | issueSlave _ _ hl hp hi =>
    obtain ⟨more, hm⟩ := Issued_extends hi
    have ht := WriteTxn.slave hl.beats (hl.sel ▸ hp) hm 0 0 axiRespOkay
    exact ⟨_, by simpa using ht⟩
  | issueNone _ _ hl => exact hl.beats.exists_txn
  | wait _ _ hl hp hd =>
    have ht := WriteTxn.slave hl.beats (hl.sel ▸ hp) hd 0 0 axiRespOkay
    exact ⟨_, by simpa using ht⟩
  | resp _ _ txn => exact ⟨_, txn 0⟩

end Open

end RiscvSoc.Crossbar
