import RiscvSoc.Jtag.Track
/-!
# BUSY is truthful

The invariant of the handshake for a host that scans anything, but for a START
before the response to the last, and for any value that a first flop may take.
-/

namespace RiscvSoc.Jtag

open Monitor Sync

/-! ## The result -/

/-- RESP_OK and RDATA as the last transaction has left them. -/
structure Payload (last : Option (Option Word32 × Resp)) (respOk : Bool) (rdata : Word32) : Prop where
  ok (data : Option Word32) (resp : Resp) (h : last = some (data, resp)) : respOk = decide (resp = axiRespOkay)
  data (d : Word32) (resp : Resp) (h : last = some (some d, resp)) : rdata = d

/-- A flop that has the toggle of the last completion has its result. -/
structure Crossed (s : JtagChain) (last : Option (Option Word32 × Resp)) : Prop where
  source : Payload last s.clkSide.respOk s.clkSide.rdataReg
  first (h : s.tckSide.doneToggleSync1 = s.clkSide.doneToggleClk) :
    Payload last s.tckSide.respOkSync1 s.tckSide.rdataSync1
  second (h : s.tckSide.doneToggleSync2 = s.clkSide.doneToggleClk) :
    Payload last s.tckSide.respOkSync2 s.tckSide.rdataSync2

/-! ## Where the last START is -/

/-- The transaction is at `p`, by its handshakes. -/
def Wait.IsAt (w : Wait) (p : Progress) : Prop :=
  w = .outstanding (some p) ∨ (w = .outstanding none ∧ p = Progress.start p.isRead)

section Stages

variable (s : JtagChain) (q : Track)

structure TrackQuiet : Prop where
  wait : q.wait = .quiet
  pulse : s.dtm.startPulseTck = false
  clk : ClkQuiet s.clkSide s.tckSide.startToggleTck
  done : DoneSync s.tckSide s.tckSide.startToggleTck s.tckSide.startToggleTck
  prev (h : s.dtm.bridgeBusyPrev = true) : q.last.isSome = true

/-- The start pulse is up, the toggle has not changed. The last completion may still
be in the second flop. -/
structure TrackPulse : Prop where
  wait : q.wait = .outstanding none
  pulse : s.dtm.startPulseTck = true
  tap : s.dtm.tap = .selectDrScan ∨ s.dtm.tap = .runTestIdle
  clk : ClkQuiet s.clkSide s.tckSide.startToggleTck
  done : s.tckSide.doneToggleSync1 = s.tckSide.startToggleTck
  prev (h : s.dtm.bridgeBusyPrev = true) : q.last.isSome = true

/-- The toggle crosses to `clk`. -/
structure TrackWaking (k : ℕ) : Prop where
  wait : q.wait = .outstanding none
  pulse : s.dtm.startPulseTck = false
  clk : ClkWaking s.clkSide s.tckSide.startToggleTck k
  done : DoneSync s.tckSide (!s.tckSide.startToggleTck) (!s.tckSide.startToggleTck)

structure TrackBus (p : Progress) : Prop where
  wait : q.wait.IsAt p
  pulse : s.dtm.startPulseTck = false
  clk : ∃ addr data, ClkBusy s.clkSide addr data s.tckSide.startToggleTck p
  done : DoneSync s.tckSide (!s.tckSide.startToggleTck) (!s.tckSide.startToggleTck)

/-- The completion crosses to `tck`. -/
structure TrackPassing (second : Bool) : Prop where
  wait : q.wait = .passing second
  pulse : s.dtm.startPulseTck = false
  clk : ClkQuiet s.clkSide s.tckSide.startToggleTck
  done :
    if second then s.tckSide.doneToggleSync1 = s.tckSide.startToggleTck
    else s.tckSide.doneToggleSync2 = !s.tckSide.startToggleTck
  last : q.last.isSome = true

inductive TrackStage : Prop
  | quiet (h : TrackQuiet s q)
  | pulse (h : TrackPulse s q)
  | waking {k} (h : TrackWaking s q k)
  | bus {p} (h : TrackBus s q p)
  | passing {second} (h : TrackPassing s q second)

structure Tracked : Prop where
  crossed : Crossed s q.last
  stage : TrackStage s q

end Stages

/-! ## The sides of an instant -/

section Sides

variable {s : JtagChain} {e : Edge} {x : Resolve}

theorem stepMixed_dtm : (s.stepMixed e x).dtm = (s.step e).dtm := rfl

theorem stepMixed_startToggle : (s.stepMixed e x).tckSide.startToggleTck = (s.step e).tckSide.startToggleTck := by
  cases ht : e.tck with
  | none => simp [JtagChain.stepMixed, JtagChain.step, ht]
  | some i =>
    simp only [JtagChain.stepMixed, JtagChain.step, JtagChain.tckStep, ht, BridgeTck.step]
    split <;> rfl

theorem stepMixed_tck_none (h : e.tck = none) : (s.stepMixed e x).tckSide = s.tckSide := by
  simp [JtagChain.stepMixed, h]

theorem stepMixed_tck_some {i : TckIn} (h : e.tck = some i) (he : e.ResetIs true) :
    (s.stepMixed e x).tckSide = s.tckSide.step true s.dtm.startPulseTck (s.sampled e x) := by
  simp [JtagChain.stepMixed, h, he.1 i h]

/-- Without a start pulse the start toggle is sampled as it is. -/
theorem stepMixed_clk (he : e.ResetIs true) (hp : s.dtm.startPulseTck = false) :
    (s.stepMixed e x).clkSide = (s.step e).clkSide := by
  have hsampled : s.sampledStart e x = s.tckSide.startToggleTck := by
    rw [JtagChain.sampledStart, startToggle_step he hp, ite_self]
  cases hclk : e.clk <;> simp [JtagChain.stepMixed, JtagChain.step, JtagChain.clkStep, hsampled, hclk]

/-- The registers of the result are those of a step whatever is sampled. -/
theorem stepMixed_result :
    (s.stepMixed e x).clkSide.doneToggleClk = (s.step e).clkSide.doneToggleClk ∧
      (s.stepMixed e x).clkSide.respOk = (s.step e).clkSide.respOk ∧
      (s.stepMixed e x).clkSide.rdataReg = (s.step e).clkSide.rdataReg := by
  cases hc : e.clk with
  | none => simp [JtagChain.stepMixed, JtagChain.step, hc]
  | some i =>
    simp only [JtagChain.stepMixed, JtagChain.step, JtagChain.clkStep, hc, BridgeClk.step]
    split <;> exact ⟨rfl, rfl, rfl⟩

/-- The result changes with the done toggle only. -/
theorem result_keeps (he : e.ResetIs true) (h : (s.step e).clkSide.doneToggleClk = s.clkSide.doneToggleClk) :
    (s.step e).clkSide.respOk = s.clkSide.respOk ∧ (s.step e).clkSide.rdataReg = s.clkSide.rdataReg := by
  cases hc : e.clk with
  | none => rw [clk_none hc]; exact ⟨rfl, rfl⟩
  | some i =>
    rw [clk_some hc he] at h ⊢
    simp only [BridgeClk.step, BridgeClk.fsm] at h ⊢
    cases hs : s.clkSide.state <;> simp only [hs] at h ⊢ <;> grind

theorem sampled_keeps (he : e.ResetIs true) (h : (s.step e).clkSide.doneToggleClk = s.clkSide.doneToggleClk) :
    s.sampled e x = s.clkSide := by
  obtain ⟨hok, hdata⟩ := result_keeps he h
  simp only [JtagChain.sampled, h, hok, hdata, mix_same, ite_self]

/-- A completion is a response on B or on R, and brings its result. -/
theorem done_flips {i : ClkIn} (hc : e.clk = some i) (he : e.ResetIs true)
    (h : (s.step e).clkSide.doneToggleClk ≠ s.clkSide.doneToggleClk) :
    (s.clkSide.state = .wrB ∧ i.rsp.bvalid = true ∧
        (s.step e).clkSide.respOk = decide (i.rsp.bresp = axiRespOkay) ∧
        (s.step e).clkSide.rdataReg = s.clkSide.rdataReg) ∨
      (s.clkSide.state = .rdR ∧ i.rsp.rvalid = true ∧
        (s.step e).clkSide.respOk = decide (i.rsp.rresp = axiRespOkay) ∧
        (s.step e).clkSide.rdataReg = i.rsp.rdata) := by
  rw [clk_some hc he] at h ⊢
  simp only [BridgeClk.step, BridgeClk.fsm] at h ⊢
  cases hs : s.clkSide.state <;> simp only [hs] at h ⊢ <;> grind

/-- A first flop that takes the new toggle takes the result with it. -/
theorem sampled_coherent {i : TckIn} (ht : e.tck = some i) (he : e.ResetIs true) (hco : s.Coherent e x)
    (h : (s.step e).clkSide.doneToggleClk ≠ s.clkSide.doneToggleClk) (hx : x.done = true) :
    (s.sampled e x).respOk = (s.step e).clkSide.respOk ∧ (s.sampled e x).rdataReg = (s.step e).clkSide.rdataReg := by
  cases hc : e.clk with
  | none => exact absurd (by rw [clk_none hc]) h
  | some j =>
    obtain ⟨hb, hr⟩ := hco j (by simp [ht]) hc hx
    rcases done_flips hc he h with ⟨hs, hv, hok, hdata⟩ | ⟨hs, hv, hok, hdata⟩
    · have hbit := hb hs hv
      rw [← hok] at hbit
      simp only [JtagChain.sampled, hdata, mix_same, and_true]
      split
      · rfl
      · exact hbit.resolve_left (by assumption)
    · obtain ⟨hbit, hword⟩ := hr hs hv
      rw [← hok] at hbit
      simp only [JtagChain.sampled, hdata, hword, and_true]
      split
      · rfl
      · exact hbit.resolve_left (by assumption)

end Sides

/-! ## The result crosses -/

section Crossed

variable {s : JtagChain} {e : Edge} {x : Resolve} {last : Option (Option Word32 × Resp)}

theorem Crossed.keep (h : Crossed s last) (he : e.ResetIs true)
    (hd : (s.step e).clkSide.doneToggleClk = s.clkSide.doneToggleClk) : Crossed (s.stepMixed e x) last := by
  obtain ⟨hdone, hok, hdata⟩ := stepMixed_result (s := s) (e := e) (x := x)
  obtain ⟨hok', hdata'⟩ := result_keeps he hd
  have hsource : Payload last (s.stepMixed e x).clkSide.respOk (s.stepMixed e x).clkSide.rdataReg := by
    rw [hok, hdata, hok', hdata']
    exact h.source
  cases ht : e.tck with
  | none =>
    refine ⟨hsource, fun hf => ?_, fun hf => ?_⟩ <;> rw [stepMixed_tck_none ht, hdone, hd] at hf <;>
      rw [stepMixed_tck_none ht]
    · exact h.first hf
    · exact h.second hf
  | some i =>
    rw [hok, hdata, hok', hdata'] at hsource
    have htck : (s.stepMixed e x).tckSide = s.tckSide.step true s.dtm.startPulseTck s.clkSide := by
      rw [stepMixed_tck_some ht he, sampled_keeps he hd]
    constructor
    · rw [hok, hdata, hok', hdata']
      exact hsource
    · intro _
      rw [htck]
      exact hsource
    · intro hf
      rw [htck, hdone, hd] at hf
      rw [htck]
      exact h.first hf

/-- The response comes: no flop has its toggle before it, and one that samples it
has the result with it. -/
theorem Crossed.answer {t : Bool} {data : Option Word32} {resp : Resp} (he : e.ResetIs true)
    (hold : s.clkSide.doneToggleClk = !t) (hd : DoneSync s.tckSide (!t) (!t))
    (hc : ClkAnswered (s.step e).clkSide t data resp) (hco : s.Coherent e x) :
    Crossed (s.stepMixed e x) (some (data, resp)) := by
  obtain ⟨hdone, hok, hdata⟩ := stepMixed_result (s := s) (e := e) (x := x)
  have hpay : Payload (some (data, resp)) (s.step e).clkSide.respOk (s.step e).clkSide.rdataReg := by
    constructor
    · intro data' resp' h
      obtain ⟨rfl, rfl⟩ := Prod.mk.inj (Option.some.inj h)
      exact hc.ok
    · intro d resp' h
      obtain ⟨rfl, rfl⟩ := Prod.mk.inj (Option.some.inj h)
      exact hc.rdata d rfl
  have hnew : (s.step e).clkSide.doneToggleClk = t := hc.quiet.done
  have hflip : (s.step e).clkSide.doneToggleClk ≠ s.clkSide.doneToggleClk := by
    rw [hnew, hold]
    exact Bool.self_ne_not t
  constructor
  · rwa [hok, hdata]
  · intro hf
    rw [hdone, hnew] at hf
    cases ht : e.tck with
    | none =>
      rw [stepMixed_tck_none ht, hd.1] at hf
      exact absurd hf (Bool.not_ne_self t)
    | some i =>
      rw [stepMixed_tck_some ht he] at hf ⊢
      have hx : x.done = true := by
        by_contra hx
        simp [BridgeTck.step, JtagChain.sampled, hx, hold] at hf
      obtain ⟨hok', hdata'⟩ := sampled_coherent ht he hco hflip hx
      rw [← hok', ← hdata'] at hpay
      exact hpay
  · intro hf
    rw [hdone, hnew] at hf
    -- what the second flop has was in the first before
    cases ht : e.tck with
    | none =>
      rw [stepMixed_tck_none ht, hd.2] at hf
      exact absurd hf (Bool.not_ne_self t)
    | some i =>
      rw [stepMixed_tck_some ht he] at hf
      exact absurd (hd.1.symm.trans hf) (Bool.not_ne_self t)

end Crossed

/-! ## An edge of `tck` -/

section Tck

variable {s : JtagChain} {e : Edge} {x : Resolve} {q : Track} {i : TckIn}

theorem Payload.okFits {ok : Bool} {rdata : Word32} (h : Payload q.last ok rdata) : q.okFits ok = true := by
  cases hl : q.last with
  | none => simp [Track.okFits, hl]
  | some l => simp [Track.okFits, hl, h.ok l.1 l.2 hl]

theorem Payload.latchFits {ok : Bool} {rdata : Word32} (h : Payload q.last ok rdata) (hs : q.last.isSome = true) :
    q.latchFits rdata = true := by
  obtain ⟨⟨data, resp⟩, hl⟩ := Option.isSome_iff_exists.1 hs
  cases data with
  | none => simp [Track.latchFits, hl]
  | some d => simp [Track.latchFits, hl, h.data d resp hl]

theorem tckTrack_eq (hi : i.resetn = true) :
    s.tckTrack i =
      .tck
        (if s.dtm.tap = .captureDr && s.dtm.irReg = irAxiCtrl then some (s.tckSide.busyTck, s.tckSide.respOkSync2)
          else none)
        (if s.dtm.latches (s.dtmIn i) && !s.dtm.updates irAxiData then some s.tckSide.rdataSync2 else none) s.starts := by
  have hlatch : (if s.dtm.latches (s.dtmIn i) && !s.dtm.updates irAxiData then
      some (s.dtm.step (s.dtmIn i) i.resetn).dataReg else none) =
      if s.dtm.latches (s.dtmIn i) && !s.dtm.updates irAxiData then some s.tckSide.rdataSync2 else none := by
    by_cases h : (s.dtm.latches (s.dtmIn i) && !s.dtm.updates irAxiData) = true
    · rw [if_pos h, if_pos h, hi, JtagDtm.step_dataReg]
      simp only [Bool.and_eq_true, Bool.not_eq_true'] at h
      rw [h.2, h.1]
      rfl
    · rw [if_neg h, if_neg h]
  simp only [JtagChain.tckTrack, hlatch]
  by_cases h : (decide (s.dtm.tap = .captureDr) && decide (s.dtm.irReg = irAxiCtrl)) = true
  · have hir : s.dtm.irReg = irAxiCtrl := by simp_all
    obtain ⟨hb, hok⟩ := s.dtm.captured_ctrl (s.dtmIn i) hir
    rw [if_pos h, if_pos h, hb, hok]
    rfl
  · rw [if_neg h, if_neg h]

/-- The wait after the edges of an instant, before its handshakes. -/
def nextWait (s : JtagChain) (e : Edge) (w : Wait) : Wait :=
  e.tck.elim w fun _ => if s.starts then w.started else w.tick

/-- An instant whose capture and latch fit. -/
theorem follow_tckTrack (he : e.ResetIs true)
    (reads : s.dtm.tap = .captureDr → q.reads (s.tckSide.busyTck, s.tckSide.respOkSync2) = true)
    (latch : s.dtm.bridgeBusyPrev = true → s.tckSide.busyTck = false → q.latchFits s.tckSide.rdataSync2 = true) :
    follow Track.step q (e.tck.elim [] fun i => [s.tckTrack i]) = some { q with wait := nextWait s e q.wait } := by
  cases ht : e.tck with
  | none => simp [nextWait, ht]
  | some i =>
    have hreads : (if s.dtm.tap = .captureDr && s.dtm.irReg = irAxiCtrl then
        some (s.tckSide.busyTck, s.tckSide.respOkSync2) else none).all q.reads = true := by
      split
      · next h => simpa using reads (by simp_all)
      · rfl
    have hlatch : (if s.dtm.latches (s.dtmIn i) && !s.dtm.updates irAxiData then some s.tckSide.rdataSync2
        else none).all q.latchFits = true := by
      split
      · next h =>
        simp only [JtagDtm.latches, JtagChain.dtmIn, Bool.and_eq_true, Bool.not_eq_true'] at h
        simpa using latch h.1.2.1.1 h.1.2.1.2
      · rfl
    simp only [Option.elim_some, follow_singleton, tckTrack_eq (he.1 i ht), Track.step, hreads, hlatch, Bool.and_self,
      if_true, nextWait, ht]

theorem pulse_step (he : e.ResetIs true) :
    (s.stepMixed e x).dtm.startPulseTck = e.tck.elim s.dtm.startPulseTck fun _ => s.starts := by
  rw [stepMixed_dtm]
  cases ht : e.tck with
  | none => rw [(tck_none ht).1, Option.elim_none]
  | some i => rw [(tck_some ht he).1, JtagDtm.step_startPulseTck, Option.elim_some, JtagChain.starts]

/-- After an update the TAP is on its way to the next scan. -/
theorem starts_tap {i : TckIn} (ht : e.tck = some i) (he : e.ResetIs true) (h : s.starts = true) :
    (s.stepMixed e x).dtm.tap = .selectDrScan ∨ (s.stepMixed e x).dtm.tap = .runTestIdle := by
  have htap : s.dtm.tap = .updateDr := by
    simp only [JtagChain.starts, JtagDtm.updates, Bool.and_eq_true, decide_eq_true_eq] at h
    exact h.1.1
  rw [stepMixed_dtm, (tck_some ht he).1]
  cases hm : i.tms <;> simp [JtagDtm.step, htap, nextState, JtagChain.dtmIn, hm]

theorem prev_step (he : e.ResetIs true) (h : (s.stepMixed e x).dtm.bridgeBusyPrev = true) :
    if e.tck.isSome then s.tckSide.busyTck = true else s.dtm.bridgeBusyPrev = true := by
  rw [stepMixed_dtm] at h
  cases ht : e.tck with
  | none => simpa [(tck_none ht).1] using h
  | some i =>
    rw [(tck_some ht he).1, JtagDtm.step_bridgeBusyPrev] at h
    simp only [JtagChain.dtmIn, Bool.and_eq_true] at h
    simpa using h.2

/-- The flops of the done toggle, where no response comes. -/
theorem doneSync_step (he : e.ResetIs true) (hd : (s.step e).clkSide.doneToggleClk = s.clkSide.doneToggleClk) :
    (s.stepMixed e x).tckSide.doneToggleSync1 =
        (if e.tck.isSome then s.clkSide.doneToggleClk else s.tckSide.doneToggleSync1) ∧
      (s.stepMixed e x).tckSide.doneToggleSync2 =
        if e.tck.isSome then s.tckSide.doneToggleSync1 else s.tckSide.doneToggleSync2 := by
  cases ht : e.tck with
  | none => simp [stepMixed_tck_none ht]
  | some i => simp [stepMixed_tck_some ht he, sampled_keeps he hd, BridgeTck.step]

end Tck

/-! ## One instant -/

/-- The monitor follows the instant, and the chain is at `T` after it. -/
def TrackNext (s : JtagChain) (e : Edge) (x : Resolve) (q : Track) (T : JtagChain → Track → Prop) : Prop :=
  ∃ q', follow Track.step q (s.trackEvents e) = some q' ∧ Crossed (s.stepMixed e x) q'.last ∧ T (s.stepMixed e x) q'

section Stages

variable {s : JtagChain} {e : Edge} {x : Resolve} {q : Track}

/-- An instant without a handshake. -/
theorem TrackNext.of_tck {T : JtagChain → Track → Prop} (he : e.ResetIs true) (hcr : Crossed s q.last)
    (hev : e.clk.elim [] s.clkEvents = []) (hd : (s.step e).clkSide.doneToggleClk = s.clkSide.doneToggleClk)
    (reads : s.dtm.tap = .captureDr → q.reads (s.tckSide.busyTck, s.tckSide.respOkSync2) = true)
    (latch : s.dtm.bridgeBusyPrev = true → s.tckSide.busyTck = false → q.latchFits s.tckSide.rdataSync2 = true)
    (next : T (s.stepMixed e x) { q with wait := nextWait s e q.wait }) : TrackNext s e x q T := by
  refine ⟨{ q with wait := nextWait s e q.wait }, ?_, hcr.keep he hd, next⟩
  rw [JtagChain.trackEvents, hev, List.map_nil, List.append_nil]
  exact follow_tckTrack he reads latch

/-- An instant with the `clk` side idle and no start pulse. -/
structure QuietInstant (s : JtagChain) (e : Edge) (s' : JtagChain) : Prop where
  events : e.clk.elim [] s.clkEvents = []
  done : (s.step e).clkSide.doneToggleClk = s.clkSide.doneToggleClk
  startToggle : s'.tckSide.startToggleTck = s.tckSide.startToggleTck
  clk : ClkQuiet s'.clkSide s.tckSide.startToggleTck
  sync1 : s'.tckSide.doneToggleSync1 =
    if e.tck.isSome then s.tckSide.startToggleTck else s.tckSide.doneToggleSync1
  sync2 : s'.tckSide.doneToggleSync2 =
    if e.tck.isSome then s.tckSide.doneToggleSync1 else s.tckSide.doneToggleSync2

theorem quietInstant (hclk : ClkQuiet s.clkSide s.tckSide.startToggleTck) (hp : s.dtm.startPulseTck = false)
    (he : e.ResetIs true) : QuietInstant s e (s.stepMixed e x) := by
  obtain ⟨hsame, hev⟩ := hclk.step he
  have hd : (s.step e).clkSide.doneToggleClk = s.clkSide.doneToggleClk := by rw [hsame]
  obtain ⟨hd1, hd2⟩ := doneSync_step (x := x) he hd
  constructor
  · exact hev
  · exact hd
  · rw [stepMixed_startToggle, startToggle_step he hp]
  · rw [stepMixed_clk he hp, hsame]
    exact hclk
  · rw [hd1, hclk.done]
  · exact hd2

/-- An update with START = 1 where the rule allows it. -/
theorem trackPulse_of_starts {i : TckIn} (hq : QuietInstant s e (s.stepMixed e x)) (ht : e.tck = some i)
    (he : e.ResetIs true) (hs : s.starts = true) (hw : q.wait.isOutstanding = false)
    (hl : s.tckSide.busyTck = true → q.last.isSome = true) :
    TrackPulse (s.stepMixed e x) { q with wait := nextWait s e q.wait } := by
  constructor
  · cases hwait : q.wait with
    | outstanding p => simp [hwait, Wait.isOutstanding] at hw
    | quiet | passing _ => simp [nextWait, ht, hs, Wait.started]
  · rw [pulse_step he, ht, Option.elim_some, hs]
  · exact starts_tap ht he hs
  · rw [hq.startToggle]
    exact hq.clk
  · rw [hq.startToggle, hq.sync1, ht]
    rfl
  · intro hp
    exact hl (by simpa [ht] using prev_step he hp)

theorem TrackQuiet.step (h : TrackQuiet s q) (hcr : Crossed s q.last) (he : e.ResetIs true) :
    TrackNext s e x q fun s' q' => TrackQuiet s' q' ∨ TrackPulse s' q' := by
  have hq := quietInstant (x := x) h.clk h.pulse he
  have hbusy : s.tckSide.busyTck = false := by simp [BridgeTck.busyTck, h.done.2]
  have hpay : Payload q.last s.tckSide.respOkSync2 s.tckSide.rdataSync2 :=
    hcr.second (h.done.2.trans h.clk.done.symm)
  refine TrackNext.of_tck he hcr hq.events hq.done (fun _ => ?_) (fun hp _ => hpay.latchFits (h.prev hp)) ?_
  · simp [Track.reads, h.wait, hbusy, hpay.okFits]
  -- with no START, whether `tck` has an edge or not
  have hstays (hw : nextWait s e q.wait = .quiet) (hpulse : (s.stepMixed e x).dtm.startPulseTck = false) :
      TrackQuiet (s.stepMixed e x) { q with wait := nextWait s e q.wait } := by
    refine ⟨hw, hpulse, ?_, ⟨?_, ?_⟩, ?_⟩
    · rw [hq.startToggle]
      exact hq.clk
    · rw [hq.startToggle, hq.sync1, h.done.1, ite_self]
    · rw [hq.startToggle, hq.sync2, h.done.1, h.done.2, ite_self]
    · intro hp
      have hp' := prev_step he hp
      split at hp'
      · simp [hbusy] at hp'
      · exact h.prev hp'
  cases ht : e.tck with
  | none => exact .inl (hstays (by simp [nextWait, ht, h.wait]) (by rw [pulse_step he, ht]; exact h.pulse))
  | some i =>
    cases hs : s.starts with
    | false =>
      exact .inl (hstays (by simp [nextWait, ht, hs, h.wait, Wait.tick])
        (by rw [pulse_step he, ht, Option.elim_some, hs]))
    | true => exact .inr (trackPulse_of_starts hq ht he hs (by rw [h.wait]; rfl) (by simp [hbusy]))

theorem TrackPassing.step {second : Bool} (h : TrackPassing s q second) (hcr : Crossed s q.last) (he : e.ResetIs true) :
    TrackNext s e x q fun s' q' => (∃ second, TrackPassing s' q' second) ∨ TrackQuiet s' q' ∨ TrackPulse s' q' := by
  have hq := quietInstant (x := x) h.clk h.pulse he
  have hpay (hb : s.tckSide.busyTck = false) : Payload q.last s.tckSide.respOkSync2 s.tckSide.rdataSync2 := by
    refine hcr.second ?_
    rw [h.clk.done]
    exact (bne_eq_false_iff_eq.1 hb).symm
  refine TrackNext.of_tck he hcr hq.events hq.done (fun _ => ?_) (fun _ hb => (hpay hb).latchFits h.last) ?_
  -- BUSY may read either way until the second edge, but not 0 before the toggle is through
  · cases hb : s.tckSide.busyTck with
    | true => cases second <;> simp [Track.reads, h.wait]
    | false =>
      cases second with
      | false =>
        have hd := h.done
        simp only [Bool.false_eq_true, if_false] at hd
        simp [BridgeTck.busyTck, hd] at hb
      | true => simp [Track.reads, h.wait, (hpay hb).okFits]
  have hclk : ClkQuiet (s.stepMixed e x).clkSide (s.stepMixed e x).tckSide.startToggleTck := by
    rw [hq.startToggle]
    exact hq.clk
  cases ht : e.tck with
  | none =>
    refine .inl ⟨second, ?_, ?_, hclk, ?_, h.last⟩
    · simp [nextWait, ht, h.wait]
    · rw [pulse_step he, ht]
      exact h.pulse
    · rw [hq.startToggle, hq.sync1, hq.sync2, ht]
      exact h.done
  | some i =>
    cases hs : s.starts with
    | true => exact .inr (.inr (trackPulse_of_starts hq ht he hs (by rw [h.wait]; rfl) fun _ => h.last))
    | false =>
      have hpulse : (s.stepMixed e x).dtm.startPulseTck = false := by rw [pulse_step he, ht, Option.elim_some, hs]
      have hd1 : (s.stepMixed e x).tckSide.doneToggleSync1 = (s.stepMixed e x).tckSide.startToggleTck := by
        rw [hq.startToggle, hq.sync1, ht]
        rfl
      -- one flop an edge
      cases second with
      | false =>
        refine .inl ⟨true, ?_, hpulse, hclk, hd1, h.last⟩
        simp [nextWait, ht, hs, h.wait, Wait.tick]
      | true =>
        refine .inr (.inl ⟨?_, hpulse, hclk, ⟨hd1, ?_⟩, fun _ => h.last⟩)
        · simp [nextWait, ht, hs, h.wait, Wait.tick]
        · rw [hq.startToggle, hq.sync2, ht]
          exact h.done

/-- The toggle flips while `clk` is quiet; it may already be in the first flop. -/
theorem ClkQuiet.waking (h : ClkQuiet s.clkSide s.tckSide.startToggleTck) (he : e.ResetIs true) :
    ∃ k, ClkWaking (s.stepMixed e x).clkSide (!s.tckSide.startToggleTck) k := by
  obtain ⟨h1, h2, h3, h4, h5⟩ := h
  cases hc : e.clk with
  | none =>
    have hclk : (s.stepMixed e x).clkSide = s.clkSide := by simp [JtagChain.stepMixed, hc]
    rw [hclk]
    exact ⟨2, by simp [h1], by simp [h2], by simp [h3], h4, by simp [h5]⟩
  | some j =>
    have hclk : (s.stepMixed e x).clkSide = s.clkSide.step true (s.sampledStart e x) s.dtm j.rsp := by
      simp [JtagChain.stepMixed, hc, he.2 j hc]
    have hpulse : s.clkSide.startPulseClk = false := by simp [BridgeClk.startPulseClk, h2, h3]
    refine ⟨if s.sampledStart e x = s.tckSide.startToggleTck then 2 else 1, ?_, ?_, ?_, ?_, ?_⟩ <;> rw [hclk]
    · by_cases hsam : s.sampledStart e x = s.tckSide.startToggleTck
      · simp [BridgeClk.step, hsam]
      · simp only [BridgeClk.step, hsam, if_false, Bool.not_true, Bool.false_eq_true]
        exact Bool.eq_not_of_ne hsam
    · split <;> simp [BridgeClk.step, h1]
    · simp [BridgeClk.step, h2]
    · simp [BridgeClk.step, BridgeClk.fsm, h4, hpulse]
    · simp [BridgeClk.step, BridgeClk.fsm, h4, hpulse, h5]

/-- The start pulse is up until the next edge of `tck` flips the toggle. -/
theorem TrackPulse.step (h : TrackPulse s q) (hcr : Crossed s q.last) (he : e.ResetIs true) :
    TrackNext s e x q fun s' q' => (e.tck = none ∧ TrackPulse s' q') ∨ ∃ k, TrackWaking s' q' k := by
  obtain ⟨hsame, hev⟩ := h.clk.step he
  have hd : (s.step e).clkSide.doneToggleClk = s.clkSide.doneToggleClk := by rw [hsame]
  have hcap : s.dtm.tap ≠ .captureDr := by rcases h.tap with h | h <;> simp [h]
  have hns : s.starts = false := by rcases h.tap with h | h <;> simp [JtagChain.starts, JtagDtm.updates, h]
  have hlatch (hp : s.dtm.bridgeBusyPrev = true) (hb : s.tckSide.busyTck = false) :
      q.latchFits s.tckSide.rdataSync2 = true := by
    refine Payload.latchFits (hcr.second ?_) (h.prev hp)
    rw [h.clk.done]
    exact (bne_eq_false_iff_eq.1 hb).symm
  refine TrackNext.of_tck he hcr hev hd (fun hc => absurd hc hcap) hlatch ?_
  obtain ⟨hd1, hd2⟩ := doneSync_step (x := x) he hd
  cases ht : e.tck with
  | none =>
    have htck : (s.stepMixed e x).tckSide = s.tckSide := stepMixed_tck_none ht
    have hdtm : (s.stepMixed e x).dtm = s.dtm := (tck_none ht).1
    have hclk : (s.stepMixed e x).clkSide = (s.step e).clkSide := by
      cases hi : e.clk <;>
        simp [JtagChain.stepMixed, JtagChain.step, JtagChain.clkStep, JtagChain.sampledStart, ht, hi]
    refine .inl ⟨rfl, ?_, ?_, ?_, ?_, ?_, ?_⟩
    · simp [nextWait, ht, h.wait]
    · rw [hdtm]
      exact h.pulse
    · rw [hdtm]
      exact h.tap
    · rw [hclk, hsame, htck]
      exact h.clk
    · rw [htck]
      exact h.done
    · rw [hdtm]
      exact h.prev
  | some i =>
    have hstart : (s.stepMixed e x).tckSide.startToggleTck = !s.tckSide.startToggleTck := by
      rw [stepMixed_tck_some ht he]
      simp [BridgeTck.step, h.pulse]
    right
    obtain ⟨k, hk⟩ := h.clk.waking (x := x) he
    rw [← hstart] at hk
    refine ⟨k, ?_, ?_, hk, ?_, ?_⟩
    · simp [nextWait, ht, hns, h.wait, Wait.tick]
    · rw [pulse_step he, ht, Option.elim_some, hns]
    · rw [hstart, hd1, ht, h.clk.done]
      simp
    · rw [hstart, hd2, ht, h.done]
      simp

theorem specStep_axi {sp sp' : Spec} {ev : JEvent} (hax : ev.isAxi = true) (h : sp.specStep ev = some sp') :
    ∃ ph, sp.axi ev = some ph ∧ { sp with phase := ph } = sp' := by
  have hstep : sp.specStep ev = (sp.axi ev).map fun ph => { sp with phase := ph } := by
    cases ev <;> first | rfl | simp [JEvent.isAxi] at hax
  rw [hstep] at h
  exact Option.map_eq_some_iff.1 h

/-- A handshake of the spec is one of the transaction. -/
theorem take_of_axi {sp : Spec} {ev : JEvent} {rw rw' : Bool} {p p' : Progress} (h : sp.axi ev = some (.waiting rw' p'))
    (hp : sp.phase = .waiting rw p) : p.take ev = some p' := by
  unfold Spec.axi at h
  rw [hp] at h
  split at h <;> simp_all [Progress.take]

/-- The monitor follows a handshake of the transaction. -/
theorem Track.step_axi {ev : JEvent} {p p' : Progress} (hw : q.wait.IsAt p) (h : p.take ev = some p') :
    q.step (.axi ev) = some (q.moved p') := by
  rcases hw with hw | ⟨hw, hp⟩
  · simp [Track.step, hw, h]
  · rw [hp] at h
    simp only [Track.step, hw]
    cases hr : p.isRead with
    | false =>
      rw [hr] at h
      have h' : (Progress.write false false).take ev = some p' := h
      rw [h', Option.some_or, Option.map_some]
    | true =>
      rw [hr] at h
      have h' : (Progress.read false).take ev = some p' := h
      have hnone : (Progress.write false false).take ev = none := by
        cases ev <;> simp_all [Progress.take]
      rw [hnone, Option.none_or, h', Option.map_some]

theorem Track.moved_open {p : Progress} (hp : ∀ d r, p ≠ .answered d r) :
    (q.moved p).wait.IsAt p ∧ ∀ p', (q.moved p).moved p' = q.moved p' := by
  cases p with
  | write aw w | read ar =>
    refine ⟨.inl rfl, fun p' => ?_⟩
    cases p' <;> rfl
  | answered d r => exact absurd rfl (hp d r)

/-- The monitor follows the handshakes that the spec follows. -/
theorem follow_moves {es : List JEvent} {sp : Spec} {rw : Bool} {p p' : Progress} (hax : ∀ ev ∈ es, ev.isAxi = true)
    (hw : q.wait.IsAt p) (hp : sp.phase = .waiting rw p) (h : Moves sp es rw p') :
    (p' = p ∧ follow Track.step q (es.map .axi) = some q) ∨
      follow Track.step q (es.map .axi) = some (q.moved p') := by
  induction es generalizing q sp p with
  | nil =>
    left
    have h' : sp = { sp with phase := .waiting rw p' } := Option.some.inj h
    have hphase : sp.phase = .waiting rw p' := congrArg Spec.phase h'
    rw [hp] at hphase
    exact ⟨(HostPhase.waiting.inj hphase).2.symm, rfl⟩
  | cons ev es ih =>
    right
    rw [Moves, Spec.follow, List.foldlM_cons] at h
    obtain ⟨sp₁, hsp₁, h⟩ := Option.bind_eq_some_iff.1 h
    obtain ⟨ph, hph, rfl⟩ := specStep_axi (hax ev List.mem_cons_self) hsp₁
    obtain ⟨rw', p₀, p₁, hp₀, rfl, -⟩ := axi_phase hph
    obtain ⟨rfl, rfl⟩ := HostPhase.waiting.inj (hp.symm.trans hp₀)
    have htake := take_of_axi hph hp
    have hq := Track.step_axi hw htake
    rw [List.map_cons, follow_cons, hq, Option.bind_some]
    by_cases hopen : ∃ d r, p₁ = .answered d r
    · obtain ⟨d, r, rfl⟩ := hopen
      -- nothing follows the response
      cases es with
      | nil =>
        have hphase := congrArg Spec.phase (Option.some.inj h)
        obtain ⟨-, rfl⟩ := HostPhase.waiting.inj hphase
        rfl
      | cons ev' es =>
        exfalso
        rw [List.foldlM_cons] at h
        obtain ⟨sp₂, hsp₂, -⟩ := Option.bind_eq_some_iff.1 h
        obtain ⟨ph', hph', -⟩ := specStep_axi (hax ev' (by simp)) hsp₂
        obtain ⟨rw₂, -, p₂, -, rfl, -⟩ := axi_phase hph'
        simpa [Progress.take] using take_of_axi hph' rfl
    · simp only [not_exists] at hopen
      obtain ⟨hat, hmoved⟩ := Track.moved_open (q := q) hopen
      rcases ih (fun ev' h' => hax ev' (List.mem_cons_of_mem _ h')) hat rfl h with ⟨rfl, hfol⟩ | hfol
      · exact hfol
      · rw [hfol, hmoved]

/-- While a START is outstanding and BUSY is high, an edge of `tck` changes nothing. -/
theorem follow_busy {w : Option Progress} (hw : q.wait = .outstanding w) (he : e.ResetIs true)
    (hd : DoneSync s.tckSide (!s.tckSide.startToggleTck) (!s.tckSide.startToggleTck))
    (hr : e.tck.isSome = true → s.starts = false) :
    follow Track.step q (e.tck.elim [] fun i => [s.tckTrack i]) = some q := by
  have hbusy : s.tckSide.busyTck = true := by simp [BridgeTck.busyTck, hd.2]
  have hnext : nextWait s e q.wait = q.wait := by
    cases ht : e.tck with
    | none => simp [nextWait, ht]
    | some i => simp [nextWait, ht, hr (by simp [ht]), hw, Wait.tick]
  rw [follow_tckTrack he (fun _ => by simp [Track.reads, hw, hbusy]) (fun _ hb => by simp [hbusy] at hb), hnext]

theorem pulse_stays (hp : s.dtm.startPulseTck = false) (he : e.ResetIs true)
    (hr : e.tck.isSome = true → s.starts = false) : (s.stepMixed e x).dtm.startPulseTck = false := by
  rw [pulse_step he]
  cases ht : e.tck with
  | none => exact hp
  | some i => exact hr (by simp [ht])

theorem TrackWaking.step {k : ℕ} (h : TrackWaking s q k) (hcr : Crossed s q.last) (he : e.ResetIs true)
    (hr : e.tck.isSome = true → s.starts = false) :
    TrackNext s e x q fun s' q' =>
      (∃ k', (k' ≤ k ∧ (e.clk.isSome = true → k' < k)) ∧ TrackWaking s' q' k') ∨
        ∃ rw, TrackBus s' q' (.start rw) := by
  obtain ⟨hev, hclk⟩ := h.clk.step he
  have hdone : (s.step e).clkSide.doneToggleClk = !s.tckSide.startToggleTck := by
    rcases hclk with ⟨k', -, hk⟩ | hb
    · exact hk.done
    · exact hb.done
  have hd := hdone.trans h.clk.done.symm
  -- no handshake yet, so the monitor stays where it is
  refine ⟨q, ?_, hcr.keep he hd, ?_⟩
  · rw [JtagChain.trackEvents, hev, List.map_nil, List.append_nil]
    exact follow_busy h.wait he h.done hr
  have hstart : (s.stepMixed e x).tckSide.startToggleTck = s.tckSide.startToggleTck := by
    rw [stepMixed_startToggle, startToggle_step he h.pulse]
  have hpulse := pulse_stays (x := x) h.pulse he hr
  have hsync : DoneSync (s.stepMixed e x).tckSide (!s.tckSide.startToggleTck) (!s.tckSide.startToggleTck) := by
    obtain ⟨hd1, hd2⟩ := doneSync_step (x := x) he hd
    rw [h.clk.done, h.done.1, ite_self] at hd1
    rw [h.done.1, h.done.2, ite_self] at hd2
    exact ⟨hd1, hd2⟩
  rcases hclk with ⟨k', hle, hk⟩ | hb
  · refine .inl ⟨k', hle, h.wait, hpulse, ?_, ?_⟩ <;> rw [hstart]
    · rw [stepMixed_clk he h.pulse]
      exact hk
    · exact hsync
  · refine .inr ⟨s.dtm.rwTck, .inr ⟨h.wait, ?_⟩, hpulse, ?_, ?_⟩
    · rw [Progress.isRead_start]
    · rw [hstart, stepMixed_clk he h.pulse]
      exact ⟨_, _, hb⟩
    · rw [hstart]
      exact hsync

theorem Wait.IsAt.outstanding {p : Progress} (h : q.wait.IsAt p) : ∃ w, q.wait = .outstanding w := by
  rcases h with h | ⟨h, -⟩
  · exact ⟨_, h⟩
  · exact ⟨_, h⟩

theorem clkEvents_allAxi (ev : JEvent) (h : ev ∈ e.clk.elim [] s.clkEvents) : ev.isAxi = true := by
  cases hc : e.clk with
  | none => simp [hc] at h
  | some i => exact clkEvents_isAxi (by simpa [hc] using h)

theorem TrackBus.step {p : Progress} (h : TrackBus s q p) (hcr : Crossed s q.last) (he : e.ResetIs true)
    (hco : s.Coherent e x) (hr : e.tck.isSome = true → s.starts = false) :
    TrackNext s e x q fun s' q' => TrackBus s' q' (e.progress p) ∨ TrackPassing s' q' false := by
  obtain ⟨addr, data, hclk⟩ := h.clk
  obtain ⟨w, hw⟩ := h.wait.outstanding
  obtain ⟨hmoves, hnext⟩ := hclk.step (q := ⟨addr, data, none, [], .waiting p.isRead p⟩) he rfl
  have htck := follow_busy hw he h.done hr
  have hfol := follow_moves (clkEvents_allAxi (e := e) (s := s)) h.wait rfl hmoves
  have hstart : (s.stepMixed e x).tckSide.startToggleTck = s.tckSide.startToggleTck := by
    rw [stepMixed_startToggle, startToggle_step he h.pulse]
  have hpulse := pulse_stays (x := x) h.pulse he hr
  have hstays (q' : Track) (hq' : q'.wait.IsAt (e.progress p)) (hl : q'.last = q.last)
      (hf : follow Track.step q ((e.clk.elim [] s.clkEvents).map .axi) = some q')
      (hb : ClkBusy (s.step e).clkSide addr data s.tckSide.startToggleTck (e.progress p)) :
      TrackNext s e x q fun s' q' => TrackBus s' q' (e.progress p) ∨ TrackPassing s' q' false := by
    have hd := hb.done.trans hclk.done.symm
    refine ⟨q', ?_, hl ▸ hcr.keep he hd, .inl ⟨hq', hpulse, ⟨addr, data, ?_⟩, ?_⟩⟩
    · rw [JtagChain.trackEvents, follow_append, htck]
      exact hf
    · rw [hstart, stepMixed_clk he h.pulse]
      exact hb
    · obtain ⟨hd1, hd2⟩ := doneSync_step (x := x) he hd
      rw [hclk.done, h.done.1, ite_self] at hd1
      rw [h.done.1, h.done.2, ite_self] at hd2
      rw [hstart]
      exact ⟨hd1, hd2⟩
  rcases hnext with hb | ⟨d, resp, hp, ha⟩
  -- the transaction stays open: at most one of its handshakes
  · have hopen : ∀ d r, e.progress p ≠ .answered d r := hb.here.offers.2.2.2.2.2
    rcases hfol with ⟨hp, hf⟩ | hf
    · exact hstays q (hp.symm ▸ h.wait) rfl hf hb
    · obtain ⟨hat, -⟩ := Track.moved_open (q := q) hopen
      refine hstays _ hat ?_ hf hb
      cases hpr : e.progress p with
      | write | read => rfl
      | answered d r => exact absurd hpr (hopen d r)
  -- the response: `hco` is needed at this edge only
  · have hf : follow Track.step q ((e.clk.elim [] s.clkEvents).map .axi) = some ⟨some (d, resp), .passing false⟩ := by
      rcases hfol with ⟨hp', -⟩ | hf
      · exact absurd (hp'.symm.trans hp) (hclk.here.offers.2.2.2.2.2 d resp)
      · rw [hf, hp]
        rfl
    refine ⟨⟨some (d, resp), .passing false⟩, ?_, ?_, .inr ⟨rfl, hpulse, ?_, ?_, rfl⟩⟩
    · rw [JtagChain.trackEvents, follow_append, htck]
      exact hf
    · exact Crossed.answer he hclk.done h.done ha hco
    · rw [hstart, stepMixed_clk he h.pulse]
      exact ha.quiet
    · -- the second flop takes what the first had
      rw [hstart]
      cases ht : e.tck with
      | none =>
        rw [stepMixed_tck_none ht]
        exact h.done.2
      | some i =>
        rw [stepMixed_tck_some ht he]
        exact h.done.1

/-- The rule while a START is outstanding. -/
theorem starts_of_keeps (hk : Keeps Track.step (startRule · · = true) q (s.trackEvents e)) (he : e.ResetIs true)
    (hw : ∃ w, q.wait = .outstanding w) (ht : e.tck.isSome = true) : s.starts = false := by
  obtain ⟨w, hw⟩ := hw
  obtain ⟨i, hi⟩ := Option.isSome_iff_exists.1 ht
  rw [JtagChain.trackEvents, hi, Option.elim_some, List.cons_append] at hk
  simpa [startRule, tckTrack_eq (he.1 i hi), hw, Wait.isOutstanding] using hk.head

theorem Tracked.step (h : Tracked s q) (he : e.ResetIs true) (hco : s.Coherent e x)
    (hk : Keeps Track.step (startRule · · = true) q (s.trackEvents e)) :
    ∃ q', follow Track.step q (s.trackEvents e) = some q' ∧ Tracked (s.stepMixed e x) q' := by
  obtain ⟨hcr, hstage⟩ := h
  have hnext {T : JtagChain → Track → Prop} (h : TrackNext s e x q T) (hT : ∀ s' q', T s' q' → TrackStage s' q') :
      ∃ q', follow Track.step q (s.trackEvents e) = some q' ∧ Tracked (s.stepMixed e x) q' := by
    obtain ⟨q', hfol, hcr', ht⟩ := h
    exact ⟨q', hfol, hcr', hT _ _ ht⟩
  cases hstage with
  | quiet h =>
    refine hnext (h.step hcr he) fun s' q' ht => ?_
    rcases ht with ht | ht
    · exact .quiet ht
    · exact .pulse ht
  | pulse h =>
    refine hnext (h.step hcr he) fun s' q' ht => ?_
    rcases ht with ⟨-, ht⟩ | ⟨k, ht⟩
    · exact .pulse ht
    · exact .waking ht
  | waking h =>
    refine hnext (h.step hcr he (starts_of_keeps hk he ⟨_, h.wait⟩)) fun s' q' ht => ?_
    rcases ht with ⟨k', -, ht⟩ | ⟨rw, ht⟩
    · exact .waking ht
    · exact .bus ht
  | bus h =>
    refine hnext (h.step hcr he hco (starts_of_keeps hk he h.wait.outstanding)) fun s' q' ht => ?_
    rcases ht with ht | ht
    · exact .bus ht
    · exact .passing ht
  | passing h =>
    refine hnext (h.step hcr he) fun s' q' ht => ?_
    rcases ht with ⟨second, ht⟩ | ht | ht
    · exact .passing ht
    · exact .quiet ht
    · exact .pulse ht

end Stages

/-! ## Runs -/

theorem JtagRun.tracked_zero (r : JtagRun) : Tracked (r.st 0) Track.init := by
  obtain ⟨⟨-, -, hpulse, hprev, htog, hd1, hd2⟩, ⟨hs1, hs2, hs2d⟩, hstate, hdone⟩ := r.cleared
  have hnone (ok : Bool) (rdata : Word32) : Payload Track.init.last ok rdata := by
    constructor <;> simp [Track.init]
  refine ⟨⟨hnone _ _, fun _ => hnone _ _, fun _ => hnone _ _⟩, .quiet ⟨rfl, hpulse, ?_, ?_, ?_⟩⟩
  · rw [htog]
    exact ⟨hs1, hs2, hs2d, hstate, hdone⟩
  · rw [htog]
    exact ⟨hd1, hd2⟩
  · simp [hprev]

theorem MixedRun.follow_trackLog (r : MixedRun) (hco : ∀ n, (r.st n).Coherent (r.edge n) (r.resolve n)) (n : ℕ)
    (hk : Keeps Track.step (startRule · · = true) Track.init (r.trackLog n)) :
    ∃ q, follow Track.step Track.init (r.trackLog n) = some q ∧ Tracked (r.st n) q := by
  refine follow_of_simulates Tracked r.st r.trackLog (fun n => (r.st n).trackEvents (r.edge n)) (fun _ => rfl)
    ⟨rfl, r.toJtagRun.tracked_zero⟩ (fun n q hq hk => ?_) n hk
  exact hq.step (r.running n) (hco n) hk

end RiscvSoc.Jtag
