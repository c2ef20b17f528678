import RiscvSoc.Jtag.Crossing
/-!
# One instant

From each stage an instant leads to the next one or stays, and the events it adds
to the log are those the bridge may bring.
-/

namespace RiscvSoc.Jtag

/-! ## The registers on `tck` -/

namespace JtagDtm

variable (d : JtagDtm) (i : DtmIn)

/-- The edge is an update of the register that `ir` selects. -/
def updates (ir : BitVec 4) : Bool := d.tap = .updateDr && d.irReg = ir

/-- The edge latches the result of a read. -/
def latches : Bool := d.tap ≠ .testLogicReset && (d.bridgeBusyPrev && !i.busy && d.rwTck)

theorem step_addrReg : (d.step i true).addrReg = if d.updates irAxiAddr then d.drShift else d.addrReg := by
  unfold updates
  cases ht : d.tap <;> simp only [step, regsStep, ht] <;> grind

theorem step_dataReg :
    (d.step i true).dataReg = if d.updates irAxiData then d.drShift else if d.latches i then i.rdata else d.dataReg := by
  unfold updates latches
  cases ht : d.tap <;> simp only [step, regsStep, ht] <;> grind [irAxiAddr, irAxiData, irAxiCtrl]

theorem step_rwTck : (d.step i true).rwTck = if d.updates irAxiCtrl then d.drShift.getLsbD 1 else d.rwTck := by
  unfold updates
  cases ht : d.tap <;> simp only [step, regsStep, ht] <;> grind [irAxiAddr, irAxiData, irAxiCtrl]

theorem step_startPulseTck : (d.step i true).startPulseTck = (d.updates irAxiCtrl && d.drShift.getLsbD 0) := by
  unfold updates
  cases ht : d.tap <;> simp only [step, regsStep, ht] <;> grind [irAxiAddr, irAxiData, irAxiCtrl]

theorem step_bridgeBusyPrev : (d.step i true).bridgeBusyPrev = (d.tap ≠ .testLogicReset && i.busy) := by
  cases ht : d.tap <;> simp only [step, regsStep, ht] <;> grind

theorem captured_ctrl (h : d.irReg = irAxiCtrl) :
    (d.captured i).getLsbD 0 = i.busy ∧ (d.captured i).getLsbD 1 = i.respOk := by
  have hcap : d.captured i = 0#30 ++ BitVec.ofBool i.respOk ++ BitVec.ofBool i.busy := by
    simp [captured, h, irAxiCtrl, irIdcode, irAxiAddr, irAxiData]
  rw [hcap]
  cases i.busy <;> cases i.respOk <;> decide

end JtagDtm

/-! ## While the host waits -/

section Waiting

variable {rwOk : Bool → Bool → Bool → Prop} {s : JtagChain} {i : TckIn} {q : Spec} {rw : Bool} {p : Progress}

/-- What the rule leaves of an update while the host waits. -/
theorem waiting_updates (hq : q.phase = .waiting rw p) (hr : ∀ ev ∈ s.tckEvents i, hostRule rwOk q ev)
    (hs : Scans s.dtm q.bits) :
    s.dtm.tap ≠ .testLogicReset ∧ s.dtm.updates irAxiAddr = false ∧ s.dtm.updates irAxiData = false ∧
      (s.dtm.updates irAxiCtrl = true →
        s.dtm.drShift.getLsbD 0 = false ∧ rwOk rw s.tckSide.busyTck (s.dtm.drShift.getLsbD 1)) := by
  by_cases htlr : s.dtm.tap = .testLogicReset
  · have hidle := hr .testLogicReset (by simp [JtagChain.tckEvents, htlr])
    simp [hostRule, hq] at hidle
  by_cases hu : s.dtm.tap = .updateDr
  · have hrule := hr (.update s.dtm.irReg s.tckSide.busyTck) (by simp [JtagChain.tckEvents, hu])
    simp only [hostRule, hq] at hrule
    have hir (ir : BitVec 4) (hax : isAxiReg ir = true) (h : s.dtm.irReg = ir) : ir = irAxiCtrl := by
      rw [← h] at hax ⊢
      exact (hrule hax).2.1
    refine ⟨htlr, ?_, ?_, ?_⟩
    · by_contra hc
      have h := hir irAxiAddr (by decide) (by simpa [JtagDtm.updates, hu] using hc)
      exact absurd h (by decide)
    · by_contra hc
      have h := hir irAxiData (by decide) (by simpa [JtagDtm.updates, hu] using hc)
      exact absurd h (by decide)
    · intro hc
      have hirq : s.dtm.irReg = irAxiCtrl := by simpa [JtagDtm.updates, hu] using hc
      have hax : isAxiReg s.dtm.irReg = true := by rw [hirq]; decide
      obtain ⟨hlen, -, h0, hrw⟩ := hrule hax
      rw [hs.word hu hax hlen]
      exact ⟨h0, hrw⟩
  · refine ⟨htlr, ?_, ?_, ?_⟩ <;> simp [JtagDtm.updates, hu]

theorem waiting_pulse (hq : q.phase = .waiting rw p) (hr : ∀ ev ∈ s.tckEvents i, hostRule rwOk q ev)
    (hs : Scans s.dtm q.bits) : (s.dtm.step (s.dtmIn i) true).startPulseTck = false := by
  rw [JtagDtm.step_startPulseTck]
  cases hu : s.dtm.updates irAxiCtrl with
  | false => rfl
  | true => rw [((waiting_updates hq hr hs).2.2.2 hu).1, Bool.and_false]

/-- An edge on `tck` while the host waits, a capture of BUSY = 0 apart. -/
theorem follow_waiting (hq : q.phase = .waiting rw p) (hr : ∀ ev ∈ s.tckEvents i, hostRule rwOk q ev)
    (hb : s.dtm.tap = .captureDr → s.dtm.irReg = irAxiCtrl → s.tckSide.busyTck = true) :
    q.follow (s.tckEvents i) = some { q with bits := nextBits s.dtm i.tdi q.bits } := by
  cases ht : s.dtm.tap with
  | captureDr =>
    simp only [JtagChain.tckEvents, ht, Spec.follow_singleton, Spec.specStep_capture, nextBits]
    by_cases hir : s.dtm.irReg = irAxiCtrl
    · have hbusy : (s.dtm.captured (s.dtmIn i)).getLsbD 0 = true := by
        rw [(s.dtm.captured_ctrl _ hir).1]
        exact hb ht hir
      rw [if_pos hir, hbusy]
      exact Spec.captureCtrl_busy hq
    · rw [if_neg hir, if_neg (by simp [hq])]
  | updateDr =>
    simp only [JtagChain.tckEvents, ht, Spec.follow_singleton, Spec.specStep_update, nextBits]
    have hrule := hr (.update s.dtm.irReg s.tckSide.busyTck) (by simp [JtagChain.tckEvents, ht])
    simp only [hostRule, hq] at hrule
    have hidle : q.updateReg s.dtm.irReg = q := by
      unfold Spec.updateReg
      by_cases hax : isAxiReg s.dtm.irReg = true
      · obtain ⟨-, hir, h0, -⟩ := hrule hax
        rw [hir, if_neg (by decide), if_neg (by decide), if_neg]
        rw [h0]
        simp
      · simp only [isAxiReg, Bool.or_eq_true, decide_eq_true_eq, not_or] at hax
        obtain ⟨⟨h1, h2⟩, h3⟩ := hax
        simp only [h1, h2, h3, if_false, false_and]
    rw [hidle]
  | testLogicReset =>
    have hidle := hr .testLogicReset (by simp [JtagChain.tckEvents, ht])
    simp [hostRule, hq] at hidle
  | shiftDr => simp only [JtagChain.tckEvents, ht, Spec.follow_singleton, Spec.specStep_shift, nextBits]
  | runTestIdle | selectDrScan | exit1Dr | pauseDr | exit2Dr | selectIrScan | captureIr | shiftIr | exit1Ir | pauseIr
  | exit2Ir | updateIr => simp only [JtagChain.tckEvents, ht, Spec.follow_nil, nextBits]

end Waiting

/-! ## The stages -/

/-- What the host does in the instant is as the rule allows. -/
def Obeys (rwOk : Bool → Bool → Bool → Prop) (s : JtagChain) (e : Edge) (q : Spec) : Prop :=
  ∀ ev ∈ e.tck.elim [] s.tckEvents, hostRule rwOk q ev

/-- The instant is followed by the spec and leads to `T`. -/
def StageNext (s : JtagChain) (e : Edge) (q : Spec) (T : JtagChain → Spec → Prop) : Prop :=
  ∃ q', q.follow (s.events e) = some q' ∧ Scans (s.step e).dtm q'.bits ∧ T (s.step e) q'

section Stages

variable {rwOk : Bool → Bool → Bool → Prop} {s : JtagChain} {e : Edge} {q : Spec} {rw : Bool} {p : Progress}

/-- The scan goes on, whatever else an instant brings. -/
theorem scans_step (he : e.ResetIs true) (hs : Scans s.dtm q.bits) :
    Scans (s.step e).dtm (e.tck.elim q.bits fun i => nextBits s.dtm i.tdi q.bits) := by
  cases ht : e.tck with
  | none => rwa [(tck_none ht).1]
  | some i =>
    rw [(tck_some ht he).1]
    exact hs.step (s.dtmIn i)

/-- While BUSY is high the wait goes on, with an RW bit that keeps. -/
theorem Waits.step (hw : Waits s.dtm q.addr q.data rw) (hok : ∀ rw rw', rwOk rw true rw' → rw' = rw) (he : e.ResetIs true)
    (hq : q.phase = .waiting rw p) (hb : s.tckSide.busyTck = true) (hs : Scans s.dtm q.bits)
    (hr : Obeys rwOk s e q) :
    Waits (s.step e).dtm q.addr q.data rw ∧ (e.tck.isSome = true → (s.step e).dtm.bridgeBusyPrev = true) ∧
      q.follow (e.tck.elim [] s.tckEvents) =
        some { q with bits := e.tck.elim q.bits fun i => nextBits s.dtm i.tdi q.bits } := by
  cases ht : e.tck with
  | none =>
    rw [(tck_none ht).1]
    exact ⟨hw, by simp, rfl⟩
  | some i =>
    have hr : ∀ ev ∈ s.tckEvents i, hostRule rwOk q ev := fun ev hev => hr ev (by rwa [ht])
    obtain ⟨htlr, hua, hud, huc⟩ := waiting_updates hq hr hs
    rw [(tck_some ht he).1]
    have hbusy : (s.dtmIn i).busy = true := hb
    refine ⟨⟨waiting_pulse hq hr hs, ?_, ?_, ?_⟩, ?_, follow_waiting hq hr fun _ _ => hb⟩
    · rw [JtagDtm.step_rwTck]
      split
      · next hu => exact hok rw _ (hb ▸ (huc hu).2)
      · exact hw.rwTck
    · intro a ha
      rw [JtagDtm.step_addrReg, hua]
      exact hw.known.addr a ha
    · intro x hx
      rw [JtagDtm.step_dataReg, hud, if_neg (by simp), if_neg (by simp [JtagDtm.latches, hbusy])]
      exact hw.known.data x hx
    · rw [JtagDtm.step_bridgeBusyPrev, hbusy]
      simp [htlr]

/-- While the done toggle keeps, so do its synchronisers. -/
theorem DoneSync.steady {d : Bool} (h : DoneSync s.tckSide d d) (he : e.ResetIs true)
    (hd : s.clkSide.doneToggleClk = d) : DoneSync (s.step e).tckSide d d := by
  cases ht : e.tck with
  | none => rwa [(tck_none ht).2]
  | some i =>
    rw [(tck_some ht he).2]
    exact ⟨hd, h.1⟩

theorem DoneSync.busy {t : BridgeTck} {d1 : Bool} (h : DoneSync t d1 (!t.startToggleTck)) : t.busyTck = true := by
  simp [BridgeTck.busyTck, h.2]

theorem DoneSync.free {t : BridgeTck} {d1 : Bool} (h : DoneSync t d1 t.startToggleTck) : t.busyTck = false := by
  simp [BridgeTck.busyTck, h.2]

variable (he : e.ResetIs true) (hs : Scans s.dtm q.bits)
include he hs

/-- An instant without an event on `clk` in which `tck` only scans. -/
theorem StageNext.of_quiet {T : JtagChain → Spec → Prop} (hclk : e.clk.elim [] s.clkEvents = [])
    (htck : q.follow (e.tck.elim [] s.tckEvents) =
      some { q with bits := e.tck.elim q.bits fun i => nextBits s.dtm i.tdi q.bits })
    (hT : T (s.step e) { q with bits := e.tck.elim q.bits fun i => nextBits s.dtm i.tdi q.bits }) :
    StageNext s e q T := by
  refine ⟨_, ?_, scans_step he hs, hT⟩
  rw [JtagChain.events, hclk, List.append_nil]
  exact htck

section Busy

variable (hok : ∀ rw rw', rwOk rw true rw' → rw' = rw) (hr : Obeys rwOk s e q)
include hok hr

theorem AtCrossing.step {k : ℕ} (h : AtCrossing s q rw k) : StageNext s e q fun s' q' =>
    (∃ k', (k' ≤ k ∧ (e.clk.isSome = true → k' < k)) ∧ AtCrossing s' q' rw k') ∨ AtBus s' q' rw (.start rw) := by
  obtain ⟨phase, waits, clk, done, ready⟩ := h
  obtain ⟨hw, -, hfol⟩ := waits.step hok he phase done.busy hs hr
  have htog := startToggle_step he waits.pulse
  have hdone := done.steady he clk.done
  refine StageNext.of_quiet he hs (clk.step he).1 hfol ?_
  rcases (clk.step he).2 with ⟨k', hk, hclk⟩ | hclk
  · exact .inl ⟨k', hk, phase, hw, by rwa [htog], by rwa [htog], ready⟩
  · refine .inr ⟨phase, Progress.isRead_start rw, hw, ?_, by rwa [htog]⟩
    rw [htog]
    obtain ⟨a, ha⟩ := Option.ne_none_iff_exists'.1 ready.1
    rw [waits.rwTck, waits.known.addr a ha] at hclk
    cases rw with
    | false =>
      obtain ⟨x, hx⟩ := Option.ne_none_iff_exists'.1 (ready.2 rfl)
      rw [waits.known.data x hx] at hclk
      simpa only [ha, hx] using hclk
    | true =>
      obtain ⟨h1, h2, h3, h4, h5⟩ := hclk
      cases h5 with
      | rdGo hst haddr => exact ⟨h1, h2, h3, h4, .rdGo hst (ha.trans haddr)⟩

theorem AtBus.step (h : AtBus s q rw p) : StageNext s e q fun s' q' =>
    AtBus s' q' rw (e.progress p) ∨
      ∃ data resp, e.progress p = .answered data resp ∧ AtReturn s' q' rw data resp (!s'.tckSide.startToggleTck) := by
  obtain ⟨phase, kind, waits, clk, done⟩ := h
  obtain ⟨hw, -, hfol⟩ := waits.step hok he phase done.busy hs hr
  have htog := startToggle_step he waits.pulse
  have hdone := done.steady he clk.done
  have hkind : (e.progress p).isRead = rw := by
    rw [← kind, Edge.progress]
    cases e.clk with
    | none => rfl
    | some i => exact p.isRead_next i.rsp
  obtain ⟨hmove, hnext⟩ :=
    ClkBusy.step (q := { q with bits := e.tck.elim q.bits fun i => nextBits s.dtm i.tdi q.bits }) clk he phase
  refine ⟨_, by rw [JtagChain.events, Spec.follow_append, hfol]; exact hmove, scans_step he hs, ?_⟩
  rcases hnext with hclk | ⟨data, resp, hp, hclk⟩
  · exact .inl ⟨rfl, hkind, hw, by rwa [htog], by rwa [htog]⟩
  · rw [hp] at hkind ⊢
    exact .inr ⟨data, resp, rfl, rfl, hkind, hw, by rwa [htog], by rwa [htog], by simp⟩

/-- The done toggle comes through with the payload of the edge before. -/
theorem AtReturn.step {data : Option Word32} {resp : Resp} {d1 : Bool} (h : AtReturn s q rw data resp d1) :
    StageNext s e q fun s' q' =>
      (e.tck = none ∧ AtReturn s' q' rw data resp d1) ∨
        (d1 = (!s.tckSide.startToggleTck) ∧ AtReturn s' q' rw data resp s'.tckSide.startToggleTck) ∨
          AtFall s' q' rw data resp := by
  obtain ⟨phase, kind, waits, clk, done, payload⟩ := h
  obtain ⟨hw, hprev, hfol⟩ := waits.step hok he phase done.busy hs hr
  have htog := startToggle_step he waits.pulse
  obtain ⟨hclk, hev⟩ := clk.quiet.step he
  refine StageNext.of_quiet he hs hev hfol ?_
  cases ht : e.tck with
  | none =>
    have htck : (s.step e).tckSide = s.tckSide := (tck_none ht).2
    exact .inl ⟨rfl, phase, kind, hw, by rwa [htck, hclk], by rwa [htck], by rwa [htck, hclk]⟩
  | some i =>
    have htck := (tck_some (s := s) ht he).2
    rcases Bool.eq_or_eq_not d1 s.tckSide.startToggleTck with hd | hd
    · obtain ⟨hp1, hp2⟩ := payload hd
      refine .inr (.inr ⟨phase, kind, hw, by rwa [htog, hclk], hprev (by rw [ht]; rfl), ?_, ?_, ?_⟩)
      · rw [htog, htck]
        exact ⟨clk.quiet.done, done.1.trans hd⟩
      · rw [hclk, htck]
        exact ⟨rfl, hp1⟩
      · rw [hclk, htck]
        exact hp2
    · refine .inr (.inl ⟨hd, phase, kind, hw, by rwa [htog, hclk], ?_, fun _ => ?_⟩)
      · rw [htog, htck]
        exact ⟨clk.quiet.done, done.1.trans hd⟩
      · rw [hclk, htck]
        exact ⟨rfl, rfl⟩

end Busy

section Free

variable (hr : Obeys rwOk s e q)

include hr in
/-- After the result is latched the next capture of AXI_CTRL ends the wait. -/
theorem StageNext.of_latched {data : Option Word32} {resp : Resp} {i : TckIn} (ht : e.tck = some i)
    (phase : q.phase = .waiting rw (.answered data resp)) (pulse : s.dtm.startPulseTck = false)
    (clk : ClkAnswered s.clkSide s.tckSide.startToggleTck data resp)
    (known : Known (s.step e).dtm q.addr (data.or q.data))
    (done : DoneSync s.tckSide s.tckSide.startToggleTck s.tckSide.startToggleTck)
    (ok : s.tckSide.respOkSync1 = s.clkSide.respOk ∧ s.tckSide.respOkSync2 = s.clkSide.respOk) :
    StageNext s e q fun s' q' => AtIdle s' q' ∨ AtLatched s' q' rw data resp := by
  have hr' : ∀ ev ∈ s.tckEvents i, hostRule rwOk q ev := fun ev hev => hr ev (by rwa [ht])
  obtain ⟨hclk, hev⟩ := clk.quiet.step he
  have htog := startToggle_step he pulse
  have hdone := done.steady he clk.quiet.done
  have hpulse' : (s.step e).dtm.startPulseTck = false := by
    rw [(tck_some ht he).1]
    exact waiting_pulse phase hr' hs
  have hprev' : (s.step e).dtm.bridgeBusyPrev = false := by
    rw [(tck_some ht he).1, JtagDtm.step_bridgeBusyPrev]
    simp [JtagChain.dtmIn, done.free]
  have hok' : (s.step e).tckSide.respOkSync1 = (s.step e).clkSide.respOk ∧
      (s.step e).tckSide.respOkSync2 = (s.step e).clkSide.respOk := by
    rw [hclk, (tck_some ht he).2]
    exact ⟨rfl, ok.1⟩
  by_cases hcap : s.dtm.tap = .captureDr ∧ s.dtm.irReg = irAxiCtrl
  · obtain ⟨hcap, hir⟩ := hcap
    have hscans := scans_step he hs
    obtain ⟨hb0, hb1⟩ := s.dtm.captured_ctrl (s.dtmIn i) hir
    have hb0 : (s.dtm.captured (s.dtmIn i)).getLsbD 0 = false := hb0.trans done.free
    have hb1 : (s.dtm.captured (s.dtmIn i)).getLsbD 1 = decide (resp = axiRespOkay) := hb1.trans (ok.2.trans clk.ok)
    simp only [ht, Option.elim_some, nextBits, hcap] at hscans
    refine ⟨{ q with bits := [], data := data.or q.data, ok := some (decide (resp = axiRespOkay)), phase := .idle }, ?_,
      hscans, .inl ⟨rfl, hpulse', hprev', by rw [htog, hclk]; exact clk.quiet, by rwa [htog], known, ?_⟩⟩
    · simp only [JtagChain.events, hev, ht, List.append_nil, Option.elim_some, JtagChain.tckEvents, hcap,
        Spec.follow_singleton, Spec.specStep_capture]
      rw [if_pos hir, hb0, hb1]
      exact Spec.captureCtrl_answered phase
    · rintro b hb
      obtain rfl : decide (resp = axiRespOkay) = b := Option.some.inj hb
      rw [hok'.1, hok'.2, hclk]
      exact ⟨clk.ok, clk.ok, clk.ok⟩
  · refine StageNext.of_quiet he hs hev ?_
      (.inr ⟨phase, hpulse', by rw [htog, hclk]; exact clk, known, hprev', by rwa [htog], hok'⟩)
    rw [ht]
    exact follow_waiting phase hr' fun h1 h2 => absurd ⟨h1, h2⟩ hcap

include hr in
/-- BUSY falls: the DTM latches a read's result. -/
theorem AtFall.step {data : Option Word32} {resp : Resp} (h : AtFall s q rw data resp) :
    StageNext s e q fun s' q' => AtFall s' q' rw data resp ∨ AtIdle s' q' ∨ AtLatched s' q' rw data resp := by
  obtain ⟨phase, kind, waits, clk, prev, done, ok, rdata⟩ := h
  obtain ⟨hclk, hev⟩ := clk.quiet.step he
  cases ht : e.tck with
  | none =>
    obtain ⟨hdtm, htck⟩ := tck_none (s := s) ht
    refine StageNext.of_quiet he hs hev (by rw [ht]; rfl) (.inl ⟨phase, kind, ?_, ?_, ?_, ?_, ?_, ?_⟩)
    · rwa [hdtm]
    · rwa [hclk, htck]
    · rwa [hdtm]
    · rwa [htck]
    · rwa [hclk, htck]
    · rwa [hclk, htck]
  | some i =>
    obtain ⟨htlr, hua, hud, -⟩ := waiting_updates phase (i := i) (fun ev hev => hr ev (by rwa [ht])) hs
    have hknown : Known (s.step e).dtm q.addr (data.or q.data) := by
      refine ⟨fun a ha => ?_, fun x hx => ?_⟩
      · rw [(tck_some ht he).1, JtagDtm.step_addrReg, hua]
        exact waits.known.addr a ha
      · have hlatch : s.dtm.latches (s.dtmIn i) = rw := by
          simp [JtagDtm.latches, htlr, prev, JtagChain.dtmIn, done.free, waits.rwTck]
        rw [(tck_some ht he).1, JtagDtm.step_dataReg, hud, hlatch, if_neg (by simp)]
        cases hd : data with
        | none =>
          have hrw : rw = false := by simpa [hd] using kind.symm
          rw [hrw, if_neg (by simp)]
          exact waits.known.data x (by simpa [hd] using hx)
        | some d =>
          have hrw : rw = true := by simpa [hd] using kind.symm
          obtain rfl : d = x := by simpa [hd] using hx
          rw [hrw, if_pos rfl]
          exact rdata.trans (clk.rdata d hd)
    obtain ⟨q', hfol, hscans, hq'⟩ := StageNext.of_latched he hs hr ht phase waits.pulse clk hknown done ok
    exact ⟨q', hfol, hscans, .inr hq'⟩

include hr in
theorem AtLatched.step {data : Option Word32} {resp : Resp} (h : AtLatched s q rw data resp) :
    StageNext s e q fun s' q' => AtIdle s' q' ∨ AtLatched s' q' rw data resp := by
  obtain ⟨phase, pulse, clk, known, prev, done, ok⟩ := h
  obtain ⟨hclk, hev⟩ := clk.quiet.step he
  cases ht : e.tck with
  | none =>
    obtain ⟨hdtm, htck⟩ := tck_none (s := s) ht
    refine StageNext.of_quiet he hs hev (by rw [ht]; rfl) (.inr ⟨phase, ?_, ?_, ?_, ?_, ?_, ?_⟩)
    · rwa [hdtm]
    · rwa [hclk, htck]
    · rwa [hdtm]
    · rwa [hdtm]
    · rwa [htck]
    · rwa [hclk, htck]
  | some i =>
    obtain ⟨-, hua, hud, -⟩ := waiting_updates phase (i := i) (fun ev hev => hr ev (by rwa [ht])) hs
    refine StageNext.of_latched he hs hr ht phase pulse clk ⟨fun a ha => ?_, fun x hx => ?_⟩ done ok
    · rw [(tck_some ht he).1, JtagDtm.step_addrReg, hua]
      exact known.addr a ha
    · rw [(tck_some ht he).1, JtagDtm.step_dataReg, hud, if_neg (by simp), if_neg (by simp [JtagDtm.latches, prev])]
      exact known.data x hx

/-- The edge of `tck` that flips the start toggle comes before any event. -/
theorem AtStart.step (h : AtStart s q rw) : StageNext s e q fun s' q' =>
    (e.tck = none ∧ AtStart s' q' rw) ∨ AtCrossing s' q' rw 2 := by
  obtain ⟨phase, pulse, tap, prev, clk, done, known, ready, rwTck⟩ := h
  obtain ⟨hclk, hev⟩ := clk.step he
  cases ht : e.tck with
  | none =>
    obtain ⟨hdtm, htck⟩ := tck_none (s := s) ht
    refine StageNext.of_quiet he hs hev (by rw [ht]; rfl) (.inl ⟨rfl, phase, ?_, ?_, ?_, ?_, ?_, ?_, ready, ?_⟩)
    · rwa [hdtm]
    · rwa [hdtm]
    · rwa [hdtm]
    · rwa [hclk, htck]
    · rwa [htck]
    · rwa [hdtm]
    · rwa [hdtm]
  | some i =>
    obtain ⟨hdtm, htck⟩ := tck_some (s := s) ht he
    -- one edge after Update-DR the TAP can neither capture nor update
    have hup (ir : BitVec 4) : s.dtm.updates ir = false := by rcases tap with h | h <;> simp [JtagDtm.updates, h]
    have htog : (s.step e).tckSide.startToggleTck = !s.tckSide.startToggleTck := by simp [htck, BridgeTck.step, pulse]
    have hlatch : s.dtm.latches (s.dtmIn i) = false := by simp [JtagDtm.latches, prev]
    have hfol : q.follow (e.tck.elim [] s.tckEvents) =
        some { q with bits := e.tck.elim q.bits fun i => nextBits s.dtm i.tdi q.bits } := by
      rcases tap with h | h <;> simp only [ht, Option.elim_some, JtagChain.tckEvents, h, nextBits, Spec.follow_nil]
    refine StageNext.of_quiet he hs hev hfol (.inr ⟨phase, ⟨?_, ?_, ?_, ?_⟩, ?_, ?_, ready⟩)
    · rw [hdtm, JtagDtm.step_startPulseTck, hup, Bool.false_and]
    · rw [hdtm, JtagDtm.step_rwTck, hup]
      exact rwTck
    · intro a ha
      rw [hdtm, JtagDtm.step_addrReg, hup]
      exact known.addr a ha
    · intro x hx
      rw [hdtm, JtagDtm.step_dataReg, hup, hlatch]
      exact known.data x hx
    · rw [hclk, htog]
      exact ⟨by simpa using clk.sync1, by simpa using clk.sync2, by simpa using clk.sync2D, clk.state,
        by simpa using clk.done⟩
    · rw [htog, Bool.not_not]
      exact done.steady he clk.done

omit he hs in
/-- Between transactions the host reads BUSY = 0 and what it knows. -/
theorem AtIdle.follow {i : TckIn} (h : AtIdle s q) (hu : s.dtm.tap ≠ .updateDr) :
    q.follow (s.tckEvents i) = some { q with bits := nextBits s.dtm i.tdi q.bits } := by
  cases ht : s.dtm.tap with
  | captureDr =>
    simp only [JtagChain.tckEvents, ht, Spec.follow_singleton, Spec.specStep_capture, nextBits]
    by_cases hir : s.dtm.irReg = irAxiCtrl
    · obtain ⟨hb0, hb1⟩ := s.dtm.captured_ctrl (s.dtmIn i) hir
      rw [if_pos hir, hb0, hb1, show (s.dtmIn i).busy = false from h.done.free]
      exact Spec.captureCtrl_idle h.phase fun b hb => (h.ok b hb).2.2
    · rw [if_neg hir, if_neg]
      rintro ⟨hird, -, hne, hx⟩
      obtain ⟨x, hx'⟩ := Option.ne_none_iff_exists'.1 hne
      have hcap : s.dtm.captured (s.dtmIn i) = s.dtm.dataReg := by
        simp [JtagDtm.captured, hird, irIdcode, irAxiAddr, irAxiData]
      exact hx (by rw [hcap, h.known.data x hx', hx'])
  | updateDr => exact absurd ht hu
  | testLogicReset => simp only [JtagChain.tckEvents, ht, Spec.follow_singleton, Spec.specStep_testLogicReset, nextBits]
  | shiftDr => simp only [JtagChain.tckEvents, ht, Spec.follow_singleton, Spec.specStep_shift, nextBits]
  | runTestIdle | selectDrScan | exit1Dr | pauseDr | exit2Dr | selectIrScan | captureIr | shiftIr | exit1Ir | pauseIr
  | exit2Ir | updateIr => simp only [JtagChain.tckEvents, ht, Spec.follow_nil, nextBits]

omit hs in
/-- What an edge of `tck` between transactions leaves but for the registers it updates. -/
theorem AtIdle.keeps {i : TckIn} (h : AtIdle s q) (ht : e.tck = some i) :
    (s.step e).dtm.bridgeBusyPrev = false ∧ ClkQuiet (s.step e).clkSide (s.step e).tckSide.startToggleTck ∧
      DoneSync (s.step e).tckSide (s.step e).tckSide.startToggleTck (s.step e).tckSide.startToggleTck ∧
      (∀ b, q.ok = some b → (s.step e).clkSide.respOk = b ∧ (s.step e).tckSide.respOkSync1 = b ∧
        (s.step e).tckSide.respOkSync2 = b) ∧
      (s.step e).dtm.addrReg = (if s.dtm.updates irAxiAddr then s.dtm.drShift else s.dtm.addrReg) ∧
      (s.step e).dtm.dataReg = if s.dtm.updates irAxiData then s.dtm.drShift else s.dtm.dataReg := by
  obtain ⟨hclk, -⟩ := h.clk.step he
  have htog := startToggle_step he h.pulse
  obtain ⟨hdtm, htck⟩ := tck_some (s := s) ht he
  refine ⟨?_, ?_, ?_, fun b hb => ?_, ?_, ?_⟩
  · rw [hdtm, JtagDtm.step_bridgeBusyPrev]
    simp [JtagChain.dtmIn, h.done.free]
  · rw [hclk, htog]
    exact h.clk
  · rw [htog]
    exact h.done.steady he h.clk.done
  · obtain ⟨h1, h2, -⟩ := h.ok b hb
    rw [hclk, htck]
    exact ⟨h1, h1, h2⟩
  · rw [hdtm, JtagDtm.step_addrReg]
  · rw [hdtm, JtagDtm.step_dataReg]
    simp [JtagDtm.latches, h.prev]

omit he hs in
/-- A register that was known and takes a word if it is the one that is updated. -/
theorem updated_word {ir reg : BitVec 4} {scanned old w x : Word32} {known : Option Word32} (hw : ir = reg → scanned = w)
    (h : ∀ y, known = some y → old = y) (hx : (if ir = reg then some w else known) = some x) :
    (if decide (ir = reg) then scanned else old) = x := by
  by_cases hir : ir = reg
  · rw [if_pos hir, Option.some.injEq] at hx
    rw [if_pos (by simpa using hir), hw hir, hx]
  · rw [if_neg hir] at hx
    rw [if_neg (by simpa using hir), h x hx]

include hr in
/-- An update of a register takes the word scanned; with START it begins a transaction. -/
theorem AtIdle.update {i : TckIn} (h : AtIdle s q) (ht : e.tck = some i) (hu : s.dtm.tap = .updateDr) :
    StageNext s e q fun s' q' => AtIdle s' q' ∨ ∃ rw, AtStart s' q' rw := by
  have phase := h.phase
  obtain ⟨hprev, hclk, hdone, hok, haddr, hdata⟩ := h.keeps he ht
  have hdtm := (tck_some (s := s) ht he).1
  have hrule := hr (.update s.dtm.irReg s.tckSide.busyTck) (by simp [ht, JtagChain.tckEvents, hu])
  simp only [hostRule, phase] at hrule
  have hup (ir : BitVec 4) : s.dtm.updates ir = decide (s.dtm.irReg = ir) := by simp [JtagDtm.updates, hu]
  have hword (hax : isAxiReg s.dtm.irReg = true) : s.dtm.drShift = wordOf q.bits := hs.word hu hax (hrule hax).1
  have hpulse : (s.step e).dtm.startPulseTck = (decide (s.dtm.irReg = irAxiCtrl) && s.dtm.drShift.getLsbD 0) := by
    rw [hdtm, JtagDtm.step_startPulseTck, hup]
  have hfol : q.follow (s.events e) = some (q.updateReg s.dtm.irReg) := by
    simp only [JtagChain.events, (h.clk.step he).2, ht, List.append_nil, Option.elim_some, JtagChain.tckEvents, hu,
      Spec.follow_singleton, Spec.specStep_update]
  have hscans : Scans (s.step e).dtm q.bits := by simpa only [ht, Option.elim_some, nextBits, hu] using scans_step he hs
  rw [Spec.updateReg_idle phase] at hfol
  refine ⟨_, hfol, hscans, ?_⟩
  -- START = 1 in AXI_CTRL, or a register that takes a word and no transaction
  by_cases hstart : s.dtm.irReg = irAxiCtrl ∧ (wordOf q.bits).getLsbD 0 = true
  · obtain ⟨hir, h0⟩ := hstart
    have hax : isAxiReg s.dtm.irReg = true := by rw [hir]; decide
    have hw := hword hax
    refine .inr ⟨(wordOf q.bits).getLsbD 1, ?_⟩
    rw [hir, if_neg (show irAxiCtrl ≠ irAxiAddr by decide), if_neg (show irAxiCtrl ≠ irAxiData by decide),
      if_pos ⟨rfl, h0⟩]
    refine ⟨rfl, ?_, ?_, hprev, hclk, hdone, ⟨fun a ha => ?_, fun x hx => ?_⟩, (hrule hax).2 hir h0, ?_⟩
    · rw [hpulse, hw, h0, hir]
      rfl
    · rw [hdtm]
      simp only [JtagDtm.step, hu, nextState]
      cases (s.dtmIn i).tms <;> simp
    · rw [haddr, hup, hir, if_neg (by decide)]
      exact h.known.addr a ha
    · rw [hdata, hup, hir, if_neg (by decide)]
      exact h.known.data x hx
    · rw [hdtm, JtagDtm.step_rwTck, hup, hir, hw]
      rfl
  · rw [if_neg hstart]
    refine .inl ⟨rfl, ?_, hprev, hclk, hdone, ⟨fun a ha => ?_, fun x hx => ?_⟩, hok⟩
    · rw [hpulse]
      by_contra hc
      simp only [Bool.not_eq_false, Bool.and_eq_true, decide_eq_true_eq] at hc
      exact hstart ⟨hc.1, hword (by rw [hc.1]; decide) ▸ hc.2⟩
    · rw [haddr, hup]
      exact updated_word (fun hir => hword (by rw [hir]; decide)) h.known.addr ha
    · rw [hdata, hup]
      exact updated_word (fun hir => hword (by rw [hir]; decide)) h.known.data hx

include hr in
theorem AtIdle.step (h : AtIdle s q) : StageNext s e q fun s' q' => AtIdle s' q' ∨ ∃ rw, AtStart s' q' rw := by
  have hev := (h.clk.step he).2
  cases ht : e.tck with
  | none =>
    obtain ⟨hdtm, htck⟩ := tck_none (s := s) ht
    have hclk := (h.clk.step he).1
    obtain ⟨phase, pulse, prev, clk, done, known, ok⟩ := h
    refine StageNext.of_quiet he hs hev (by rw [ht]; rfl) (.inl ⟨phase, ?_, ?_, ?_, ?_, ?_, ?_⟩)
    · rwa [hdtm]
    · rwa [hdtm]
    · rwa [hclk, htck]
    · rwa [htck]
    · rwa [hdtm]
    · rwa [hclk, htck]
  | some i =>
    by_cases hu : s.dtm.tap = .updateDr
    · exact h.update he hs hr ht hu
    -- any other TAP state leaves the registers
    obtain ⟨hprev, hclk, hdone, hok, haddr, hdata⟩ := h.keeps he ht
    have hup (ir : BitVec 4) : s.dtm.updates ir = false := by simp [JtagDtm.updates, hu]
    refine StageNext.of_quiet he hs hev (by rw [ht]; exact h.follow hu)
      (.inl ⟨h.phase, ?_, hprev, hclk, hdone, ⟨fun a ha => ?_, fun x hx => ?_⟩, hok⟩)
    · rw [(tck_some ht he).1, JtagDtm.step_startPulseTck, hup, Bool.false_and]
    · rw [haddr, hup]
      exact h.known.addr a ha
    · rw [hdata, hup]
      exact h.known.data x hx

end Free

end Stages

end RiscvSoc.Jtag
