import RiscvSoc.Crossbar.Fabric
/-!
# Writes to slaves that answer with pulses

With such slaves every step of a write has its cycle: both beats at the slave in
the cycle after the later beat, its pulse in the next, the response on offer two
cycles later and from then on until it is taken.
-/

namespace RiscvSoc.Crossbar

open Sync

/-- The last event of `l` took place in cycle `c`. -/
def LastAt {ε : Type*} (l : List (ℕ × ε)) (c : ℕ) : Prop := ∃ e, l.getLast? = some (c, e)

/-- A whole write, with its cycles: `c` is that of the later beat. -/
inductive PulseWriteTxn : List (ℕ × WEvent) → Prop
  | slave {m a d sb p up c} (hup : UpBeats m a d sb up) (hc : LastAt up c) (hp : decodeAddr a = .dev p)
      (resp : Resp) (t : ℕ) (ht : c + 4 ≤ t) :
      PulseWriteTxn (up ++ [(c + 1, .slaveAw p a), (c + 1, .slaveW p d sb), (c + 2, .slaveB p resp), (t, .b m resp)])
  | err {m a d sb up c} (hup : UpBeats m a d sb up) (hc : LastAt up c) (ha : decodeAddr a = .err)
      (t : ℕ) (ht : c + 3 ≤ t) : PulseWriteTxn (up ++ [(t, .b m axiRespDecerr)])
  | csr {m a d sb up c} (hup : UpBeats m a d sb up) (hc : LastAt up c) (ha : decodeAddr a = .xbarCsr)
      (t : ℕ) (ht : c + 3 ≤ t) : PulseWriteTxn (up ++ [(t, .b m axiRespSlverr)])

variable {bank : Slave → PulseSlave}

/-- `cur` is the part of the open write that has taken place before cycle `n`. -/
inductive PulsePhase (s : Fabric bank) (n : ℕ) : List (ℕ × WEvent) → Prop
  | idle {l} (h : s.xbar.w.wState = .idle) (hp : s.xbar.w.Phase l) : PulsePhase s n l
  | issue {up c} (h : s.xbar.w.wState = .issue) (hb : s.xbar.w.sBvalid = false) (hl : s.xbar.w.Latched up)
      (hi : s.xbar.w.wIssuedAw = false ∧ s.xbar.w.wIssuedW = false) (hc : LastAt up c) (hn : n = c + 1) :
      PulsePhase s n up
  | wait {up c p} (h : s.xbar.w.wState = .wait) (hb : s.xbar.w.sBvalid = false) (hl : s.xbar.w.Latched up)
      (hp : s.xbar.w.wSel = .dev p) (hv : (s.devRsp p).bvalid = true) (hc : LastAt up c) (hn : n = c + 2) :
      PulsePhase s n
        (up ++ [(c + 1, .slaveAw p s.xbar.w.wAddrLat), (c + 1, .slaveW p s.xbar.w.wDataLat s.xbar.w.wStrbLat)])
  | resp {l c} (h : s.xbar.w.wState = .resp) (hh : s.xbar.w.wHaveAw = false ∧ s.xbar.w.wHaveW = false)
      (hc : LastAt (l.take 2) c) (hn : s.xbar.w.sBvalid = false → n ≤ c + 3)
      (txn : ∀ t, (if s.xbar.w.sBvalid then n else n + 1) ≤ t →
        PulseWriteTxn (l ++ [(t, .b (granted s.xbar.w.wGrant) s.xbar.w.finalResp)])) : PulsePhase s n l

/-! ## One edge -/

theorem LastAt.append_events {ε : Type*} {n : ℕ} {es : List ε} (l : List (ℕ × ε)) (h : es ≠ []) :
    LastAt (l ++ es.map (n, ·)) n := by
  refine ⟨es.getLast h, ?_⟩
  rw [List.getLast?_append, List.getLast?_map, List.getLast?_eq_some_getLast h]
  rfl

theorem UpBeats.take_append {m : Master} {a d : Word32} {sb : BitVec 4} {up : List (ℕ × WEvent)}
    (h : UpBeats m a d sb up) (l : List (ℕ × WEvent)) : (up ++ l).take 2 = up := by
  rw [← h.length, List.take_left]

theorem Phase_idle_length {s : WritePath} {cur : List (ℕ × WEvent)} (h : s.wState = .idle) (hp : s.Phase cur) :
    cur.length ≤ 1 := by
  cases hp with
  | closed | gotAw | gotW => simp
  | issueSlave h' | issueNone h' | wait h' | resp h' => simp [h] at h'

theorem idle_goes {s : AxiLiteXbar} (i : XbarIn) (n : ℕ) {cur : List (ℕ × WEvent)} (h : s.w.wState = .idle)
    (hp : s.w.Phase cur) : WGoes s i n cur := by
  cases hp with
  | closed h ha hw hb => exact closed_step i n h ha hw hb
  | gotAw h ha hw hb sel t => exact gotAw_step i n h ha hw hb sel t
  | gotW h ha hw hb t => exact gotW_step i n h ha hw hb t
  | issueSlave h' | issueNone h' | wait h' | resp h' => simp [h] at h'

/-- What is latched once both beats are in. -/
theorem Phase_issue_latched {s : WritePath} {cur : List (ℕ × WEvent)} (h : s.wState = .issue)
    (hi : s.wIssuedAw = false ∧ s.wIssuedW = false) (hp : s.Phase cur) : s.sBvalid = false ∧ s.Latched cur := by
  cases hp with
  | issueSlave _ hb hl _ hiss =>
    cases hiss with
    | none => exact ⟨hb, by simpa using hl⟩
    | aw ha => simp [hi] at ha
    | w _ hw => simp [hi] at hw
  | issueNone _ hb hl => exact ⟨hb, hl⟩
  | closed h' | gotAw h' | gotW h' | wait h' | resp h' => simp [h] at h'

section Edge

variable {s : Fabric bank} (i : FabricIn bank) (n : ℕ)

/-- The write events of a cycle of the whole. -/
def Fabric.wEvents (s : Fabric bank) (i : FabricIn bank) : List WEvent := Crossbar.wEvents s.xbar (s.xbarIn i)

/-- The two outcomes of an edge: the open write goes on, or it ends. -/
def PulseNext (s : Fabric bank) (i : FabricIn bank) (n : ℕ) (cur : List (ℕ × WEvent)) : Prop :=
  let es := (s.wEvents i).map (n, ·)
  PulsePhase (s.step true i) (n + 1) (cur ++ es) ∨
    (PulseWriteTxn (cur ++ es) ∧ PulsePhase (s.step true i) (n + 1) [])

theorem PulsePhase.idle_step {cur : List (ℕ × WEvent)} (h : s.xbar.w.wState = .idle) (hp : s.xbar.w.Phase cur) :
    PulseNext s i n cur := by
  have hgo := idle_goes (s.xbarIn i) n h hp
  obtain ⟨hst, -, his, -⟩ := WritePath.idle_next (s.xbarIn i) h
  left
  cases hboth : s.xbar.w.awReadyC (s.xbarIn i) && s.xbar.w.wReadyC (s.xbarIn i) with
  | false => exact .idle (by simpa [Fabric.step_w, hboth] using hst) hgo
  | true =>
    have hissue : ((s.step true i).xbar.w).wState = .issue := by simpa [Fabric.step_w, hboth] using hst
    obtain ⟨hb, hl⟩ := Phase_issue_latched hissue (his hboth) hgo
    refine .issue hissue hb hl (his hboth) (LastAt.append_events _ ?_) rfl
    -- the latched beats are two, and at most one of them was in before
    intro hnil
    have hlen := hl.beats.length
    rw [show Crossbar.wEvents s.xbar (s.xbarIn i) = [] from hnil] at hlen
    have hle := Phase_idle_length h hp
    simp at hlen
    omega

/-- With no slave behind it a write goes from `W_ISSUE` to its response. -/
theorem PulsePhase.issueNone_step {up : List (ℕ × WEvent)} {c : ℕ} (h : s.xbar.w.wState = .issue)
    (hb : s.xbar.w.sBvalid = false) (hl : s.xbar.w.Latched up) (hc : LastAt up c) (hno : s.xbar.w.noSlave = true) :
    PulseNext s i (c + 1) up := by
  have hl' := hl.next (s.xbarIn i) (by simp [h])
  obtain ⟨⟨-, h2⟩, -⟩ := WritePath.latch_next (s.xbarIn i) (s := s.xbar.w) (by simp [h])
  obtain ⟨hst, hbv⟩ := WritePath.issueNone_next (s.xbarIn i) h hno
  rw [hb] at hbv
  left
  rw [Fabric.wEvents, wEvents_issueNone h hb hno, List.map_nil, List.append_nil]
  refine .resp hst hl'.have_none (c := c) ?_ (by omega) fun t ht => ?_
  · rwa [List.take_of_length_le hl.beats.length.le]
  simp only [Fabric.step_w, hbv, Bool.false_eq_true, if_false] at ht
  simp only [WritePath.noSlave, Bool.or_eq_true, decide_eq_true_eq] at hno
  rcases hno with hp | hp
  · have hsel : (s.xbar.w.step (s.xbarIn i) true).wSel = .err := h2.trans hp
    simpa [Fabric.step_w, WritePath.finalResp, hbv, hsel] using
      PulseWriteTxn.err hl'.beats hc (hl'.sel.symm.trans hsel) t (by omega)
  · have hsel : (s.xbar.w.step (s.xbarIn i) true).wSel = .xbarCsr := h2.trans hp
    simpa [Fabric.step_w, WritePath.finalResp, hbv, hsel] using
      PulseWriteTxn.csr hl'.beats hc (hl'.sel.symm.trans hsel) t (by omega)

theorem PulsePhase.issue_step {up : List (ℕ × WEvent)} {c : ℕ} (h : s.xbar.w.wState = .issue)
    (hb : s.xbar.w.sBvalid = false) (hl : s.xbar.w.Latched up)
    (hi : s.xbar.w.wIssuedAw = false ∧ s.xbar.w.wIssuedW = false) (hc : LastAt up c) (hn : n = c + 1) :
    PulseNext s i n up := by
  have hl' := hl.next (s.xbarIn i) (by simp [h])
  obtain ⟨⟨h1, h2⟩, ⟨h3, h4⟩, -⟩ := WritePath.latch_next (s.xbarIn i) (s := s.xbar.w) (by simp [h])
  subst hn
  cases hp : s.xbar.w.wSel with
  | dev p =>
    left
    obtain ⟨hra, hrw, -⟩ := s.ready p
    obtain ⟨hst, -, hbv⟩ := WritePath.issue_next (s.xbarIn i) h (by simp [WritePath.noSlave, hp])
    have hev : s.wEvents i = [.slaveAw p s.xbar.w.wAddrLat, .slaveW p s.xbar.w.wDataLat s.xbar.w.wStrbLat] := by
      rw [Fabric.wEvents, wEvents_issue h hb hp]
      simp [hi, WritePath.slaveAwready, WritePath.slaveWready, hp, Fabric.xbarIn, hra, hrw]
    have hv : ((s.step true i).devRsp p).bvalid = true := by
      rw [Fabric.bvalid_next]
      simp [AxiLiteXbar.req, h, hp, hi]
    have hwait : (s.xbar.w.step (s.xbarIn i) true).wState = .wait := by
      simpa [WritePath.slaveAwready, WritePath.slaveWready, hp, Fabric.xbarIn, hra, hrw] using hst
    rw [hev, ← h1, ← h3, ← h4]
    exact .wait hwait (hbv.trans hb) hl' (h2.trans hp) hv hc rfl
  | xbarCsr | err => exact issueNone_step i h hb hl hc (by simp [WritePath.noSlave, hp])

theorem PulsePhase.wait_step {up : List (ℕ × WEvent)} {c : ℕ} {p : Slave} (h : s.xbar.w.wState = .wait)
    (hb : s.xbar.w.sBvalid = false) (hl : s.xbar.w.Latched up) (hp : s.xbar.w.wSel = .dev p)
    (hv : (s.devRsp p).bvalid = true) (hc : LastAt up c) (hn : n = c + 2) :
    PulseNext s i n
      (up ++ [(c + 1, .slaveAw p s.xbar.w.wAddrLat), (c + 1, .slaveW p s.xbar.w.wDataLat s.xbar.w.wStrbLat)]) := by
  have hl' := hl.next (s.xbarIn i) (by simp [h])
  obtain ⟨⟨h1, h2⟩, ⟨h3, h4⟩, -⟩ := WritePath.latch_next (s.xbarIn i) (s := s.xbar.w) (by simp [h])
  have hsv : s.xbar.w.slaveBvalid (s.xbarIn i) = true := by
    simpa [WritePath.slaveBvalid, hp] using hv
  obtain ⟨hst, hbv, hresp⟩ := WritePath.wait_next (s.xbarIn i) h
  rw [hsv] at hst
  rw [hb] at hbv
  have hsel : (s.xbar.w.step (s.xbarIn i) true).wSel = .dev p := h2.trans hp
  left
  subst hn
  rw [Fabric.wEvents, wEvents_wait h hb hp, if_pos hsv, ← h1, ← h3, ← h4]
  refine .resp hst hl'.have_none (c := c) ?_ (by omega) fun t ht => ?_
  · rw [List.append_assoc, hl.beats.take_append]
    exact hc
  · simp only [Fabric.step_w, hbv, Bool.false_eq_true, if_false] at ht
    have htxn := PulseWriteTxn.slave hl'.beats hc (hl'.sel.symm.trans hsel) (s.xbar.w.slaveBresp (s.xbarIn i)) t
      (by omega)
    simpa [Fabric.step_w, WritePath.finalResp, hsel, hresp hsv] using htxn

theorem PulsePhase.resp_step {l : List (ℕ × WEvent)} {c : ℕ} (h : s.xbar.w.wState = .resp)
    (hh : s.xbar.w.wHaveAw = false ∧ s.xbar.w.wHaveW = false) (hc : LastAt (l.take 2) c)
    (txn : ∀ t, (if s.xbar.w.sBvalid then n else n + 1) ≤ t →
      PulseWriteTxn (l ++ [(t, .b (granted s.xbar.w.wGrant) s.xbar.w.finalResp)])) : PulseNext s i n l := by
  obtain ⟨-, -, h5, h6, h7⟩ := WritePath.latch_next (s.xbarIn i) (s := s.xbar.w) (by simp [h])
  unfold PulseNext
  rw [Fabric.wEvents, wEvents_resp h]
  cases hf : s.xbar.w.sBvalid && s.xbar.w.curBready (s.xbarIn i) with
  | true =>
    obtain ⟨hst, hb⟩ := WritePath.resp_taken (s.xbarIn i) h hf
    refine .inr ⟨?_, .idle hst.1 (.closed hst.1 (h6.trans hh.1) (h7.trans hh.2) hst.2)⟩
    simpa [Fabric.step_w, WritePath.finalResp, hb] using txn n (by simp [hb])
  | false =>
    obtain ⟨hst, hfin⟩ := WritePath.resp_held (s.xbarIn i) h hf
    refine .inl (.resp hst.1 ⟨h6.trans hh.1, h7.trans hh.2⟩ (c := c) (by simpa using hc) (by simp [Fabric.step_w, hst]) ?_)
    intro t ht
    simp only [Fabric.step_w, hst, if_true] at ht
    simpa [Fabric.step_w, hfin, h5] using txn t (by split <;> omega)

theorem PulsePhase.step {cur : List (ℕ × WEvent)} (h : PulsePhase s n cur) : PulseNext s i n cur := by
  cases h with
  | idle h hp => exact idle_step i n h hp
  | issue h hb hl hi hc hn => exact issue_step i n h hb hl hi hc hn
  | wait h hb hl hp hv hc hn => exact wait_step i n h hb hl hp hv hc hn
  | resp h hh hc _ txn => exact resp_step i n h hh hc txn

end Edge

end RiscvSoc.Crossbar
