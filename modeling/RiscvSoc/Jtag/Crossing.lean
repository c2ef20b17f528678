import RiscvSoc.Jtag.Scan
/-!
# The clock crossing

Where a transaction is, in terms of the toggles and their synchronisers. In each
stage at most one of the two clocks moves it on, and what the other clock samples
unsynchronised is stable.
-/

namespace RiscvSoc.Jtag

/-- The registers hold what is known of them. -/
structure Known (d : JtagDtm) (addr data : Option Word32) : Prop where
  addr (a : Word32) (h : addr = some a) : d.addrReg = a
  data (x : Word32) (h : data = some x) : d.dataReg = x

/-- The registers of the DTM while the bridge may need them, or may not have
latched the result: they keep. -/
structure Waits (d : JtagDtm) (addr data : Option Word32) (rw : Bool) : Prop where
  pulse : d.startPulseTck = false
  rwTck : d.rwTck = rw
  known : Known d addr data

/-- A transaction of kind `rw` has its address and data. -/
def Ready (q : Spec) (rw : Bool) : Prop := q.addr ≠ none ∧ (rw = false → q.data ≠ none)

/-- The `clk` side has seen the toggle `t` and has answered it. -/
structure ClkQuiet (c : BridgeClk) (t : Bool) : Prop where
  sync1 : c.startToggleSync1 = t
  sync2 : c.startToggleSync2 = t
  sync2D : c.startToggleSync2D = t
  state : c.state = .idle
  done : c.doneToggleClk = t

/-- The toggle `t` is on its way: `k + 1` edges of `clk` bring it to the state machine. -/
structure ClkWaking (c : BridgeClk) (t : Bool) (k : ℕ) : Prop where
  sync1 : c.startToggleSync1 = if k < 2 then t else !t
  sync2 : c.startToggleSync2 = if k < 1 then t else !t
  sync2D : c.startToggleSync2D = !t
  state : c.state = .idle
  done : c.doneToggleClk = !t

/-- The state machine is at the transaction, which is as far as `p` says. -/
inductive AtAxi (c : BridgeClk) (addr data : Option Word32) : Progress → Prop
  | wrGo (h : c.state = .wrGo) (ha : addr = some c.addrReg) (hd : data = some c.wdataReg)
      (some_open : (c.awDone && c.wDone) = false) : AtAxi c addr data (.write c.awDone c.wDone)
  | wrB (h : c.state = .wrB) : AtAxi c addr data (.write true true)
  | rdGo (h : c.state = .rdGo) (ha : addr = some c.addrReg) : AtAxi c addr data (.read false)
  | rdR (h : c.state = .rdR) : AtAxi c addr data (.read true)

/-- The `clk` side is at the transaction of toggle `t`. -/
structure ClkBusy (c : BridgeClk) (addr data : Option Word32) (t : Bool) (p : Progress) : Prop where
  sync1 : c.startToggleSync1 = t
  sync2 : c.startToggleSync2 = t
  sync2D : c.startToggleSync2D = t
  done : c.doneToggleClk = !t
  here : AtAxi c addr data p

/-- The `clk` side has answered toggle `t` with `data` and `resp`. -/
structure ClkAnswered (c : BridgeClk) (t : Bool) (data : Option Word32) (resp : Resp) : Prop where
  quiet : ClkQuiet c t
  ok : c.respOk = decide (resp = axiRespOkay)
  rdata (d : Word32) (h : data = some d) : c.rdataReg = d

/-- The `tck` side's synchroniser of the done toggle holds `d1` and `d2`. -/
def DoneSync (t : BridgeTck) (d1 d2 : Bool) : Prop := t.doneToggleSync1 = d1 ∧ t.doneToggleSync2 = d2

/-- The transaction is a read. -/
def Progress.isRead : Progress → Bool
  | .write _ _ => false
  | .read _ => true
  | .answered data _ => data.isSome

theorem Progress.isRead_start (rw : Bool) : (Progress.start rw).isRead = rw := by
  cases rw <;> rfl

/-! ## The stages -/

section Stages

variable (s : JtagChain) (q : Spec)

structure AtIdle : Prop where
  phase : q.phase = .idle
  pulse : s.dtm.startPulseTck = false
  prev : s.dtm.bridgeBusyPrev = false
  clk : ClkQuiet s.clkSide s.tckSide.startToggleTck
  done : DoneSync s.tckSide s.tckSide.startToggleTck s.tckSide.startToggleTck
  known : Known s.dtm q.addr q.data
  ok (b : Bool) (h : q.ok = some b) : s.clkSide.respOk = b ∧ s.tckSide.respOkSync1 = b ∧ s.tckSide.respOkSync2 = b

/-- AXI_CTRL is updated with START, the toggle is not. -/
structure AtStart (rw : Bool) : Prop where
  phase : q.phase = .waiting rw (.start rw)
  pulse : s.dtm.startPulseTck = true
  tap : s.dtm.tap = .selectDrScan ∨ s.dtm.tap = .runTestIdle
  prev : s.dtm.bridgeBusyPrev = false
  clk : ClkQuiet s.clkSide s.tckSide.startToggleTck
  done : DoneSync s.tckSide s.tckSide.startToggleTck s.tckSide.startToggleTck
  known : Known s.dtm q.addr q.data
  ready : Ready q rw
  rwTck : s.dtm.rwTck = rw

/-- The start toggle crosses to `clk`. -/
structure AtCrossing (rw : Bool) (k : ℕ) : Prop where
  phase : q.phase = .waiting rw (.start rw)
  waits : Waits s.dtm q.addr q.data rw
  clk : ClkWaking s.clkSide s.tckSide.startToggleTck k
  done : DoneSync s.tckSide (!s.tckSide.startToggleTck) (!s.tckSide.startToggleTck)
  ready : Ready q rw

structure AtBus (rw : Bool) (p : Progress) : Prop where
  phase : q.phase = .waiting rw p
  kind : p.isRead = rw
  waits : Waits s.dtm q.addr q.data rw
  clk : ClkBusy s.clkSide q.addr q.data s.tckSide.startToggleTck p
  done : DoneSync s.tckSide (!s.tckSide.startToggleTck) (!s.tckSide.startToggleTck)

/-- The done toggle, and with it the response, crosses to `tck`. -/
structure AtReturn (rw : Bool) (data : Option Word32) (resp : Resp) (d1 : Bool) : Prop where
  phase : q.phase = .waiting rw (.answered data resp)
  kind : data.isSome = rw
  waits : Waits s.dtm q.addr q.data rw
  clk : ClkAnswered s.clkSide s.tckSide.startToggleTck data resp
  done : DoneSync s.tckSide d1 (!s.tckSide.startToggleTck)
  payload : d1 = s.tckSide.startToggleTck →
    s.tckSide.respOkSync1 = s.clkSide.respOk ∧ s.tckSide.rdataSync1 = s.clkSide.rdataReg

/-- BUSY is low and the DTM has not seen it. -/
structure AtFall (rw : Bool) (data : Option Word32) (resp : Resp) : Prop where
  phase : q.phase = .waiting rw (.answered data resp)
  kind : data.isSome = rw
  waits : Waits s.dtm q.addr q.data rw
  clk : ClkAnswered s.clkSide s.tckSide.startToggleTck data resp
  prev : s.dtm.bridgeBusyPrev = true
  done : DoneSync s.tckSide s.tckSide.startToggleTck s.tckSide.startToggleTck
  ok : s.tckSide.respOkSync1 = s.clkSide.respOk ∧ s.tckSide.respOkSync2 = s.clkSide.respOk
  rdata : s.tckSide.rdataSync2 = s.clkSide.rdataReg

/-- The DTM has latched the result, the host has not read BUSY = 0. -/
structure AtLatched (rw : Bool) (data : Option Word32) (resp : Resp) : Prop where
  phase : q.phase = .waiting rw (.answered data resp)
  pulse : s.dtm.startPulseTck = false
  clk : ClkAnswered s.clkSide s.tckSide.startToggleTck data resp
  known : Known s.dtm q.addr (data.or q.data)
  prev : s.dtm.bridgeBusyPrev = false
  done : DoneSync s.tckSide s.tckSide.startToggleTck s.tckSide.startToggleTck
  ok : s.tckSide.respOkSync1 = s.clkSide.respOk ∧ s.tckSide.respOkSync2 = s.clkSide.respOk

/-- Where the chain is when the host is where `q` says. -/
inductive Stage : Prop
  | idle (h : AtIdle s q)
  | start {rw} (h : AtStart s q rw)
  | crossing {rw k} (h : AtCrossing s q rw k)
  | bus {rw p} (h : AtBus s q rw p)
  | back {rw data resp d1} (h : AtReturn s q rw data resp d1)
  | fall {rw data resp} (h : AtFall s q rw data resp)
  | latched {rw data resp} (h : AtLatched s q rw data resp)

/-- The invariant of a run: the stage, and the scan that the host is in. -/
structure Matches : Prop where
  scans : Scans s.dtm q.bits
  stage : Stage s q

end Stages

/-! ## The two sides of an edge -/

section Sides

variable {s : JtagChain} {e : Edge}

theorem tck_none (h : e.tck = none) : (s.step e).dtm = s.dtm ∧ (s.step e).tckSide = s.tckSide := by
  simp [JtagChain.step, h]

theorem tck_some {i : TckIn} (h : e.tck = some i) (he : e.ResetIs true) :
    (s.step e).dtm = s.dtm.step (s.dtmIn i) true ∧
      (s.step e).tckSide = s.tckSide.step true s.dtm.startPulseTck s.clkSide := by
  simp [JtagChain.step, JtagChain.tckStep, h, he.1 i h]

theorem clk_none (h : e.clk = none) : (s.step e).clkSide = s.clkSide := by
  simp [JtagChain.step, h]

theorem clk_some {i : ClkIn} (h : e.clk = some i) (he : e.ResetIs true) :
    (s.step e).clkSide = s.clkSide.step true s.tckSide.startToggleTck s.dtm i.rsp := by
  simp [JtagChain.step, JtagChain.clkStep, h, he.2 i h]

/-- Without a start pulse the start toggle keeps. -/
theorem startToggle_step (he : e.ResetIs true) (hp : s.dtm.startPulseTck = false) :
    (s.step e).tckSide.startToggleTck = s.tckSide.startToggleTck := by
  cases ht : e.tck with
  | none => rw [(tck_none ht).2]
  | some i => simp [(tck_some ht he).2, BridgeTck.step, hp]

end Sides

/-! ## The `clk` side -/

section Clk

variable {s : JtagChain} {e : Edge}

theorem ClkQuiet.step (h : ClkQuiet s.clkSide s.tckSide.startToggleTck) (he : e.ResetIs true) :
    (s.step e).clkSide = s.clkSide ∧ e.clk.elim [] s.clkEvents = [] := by
  cases hc : e.clk with
  | none => exact ⟨clk_none hc, rfl⟩
  | some i =>
    rw [clk_some hc he]
    obtain ⟨h1, h2, h3, h4, -⟩ := h
    constructor
    · generalize s.tckSide.startToggleTck = t at h1 h2 h3
      cases hcs : s.clkSide
      simp_all [BridgeClk.step, BridgeClk.fsm, BridgeClk.startPulseClk]
    · simp [JtagChain.clkEvents, BridgeClk.req, h4, whenFire]

/-- The state machine leaves its idle state when the toggle is through, with what
the registers on `tck` hold at that edge. -/
theorem ClkWaking.step {k : ℕ} (h : ClkWaking s.clkSide s.tckSide.startToggleTck k) (he : e.ResetIs true) :
    e.clk.elim [] s.clkEvents = [] ∧
      ((∃ k', (k' ≤ k ∧ (e.clk.isSome = true → k' < k)) ∧ ClkWaking (s.step e).clkSide s.tckSide.startToggleTck k') ∨
        ClkBusy (s.step e).clkSide (some s.dtm.addrReg) (some s.dtm.dataReg) s.tckSide.startToggleTck
          (.start s.dtm.rwTck)) := by
  cases hc : e.clk with
  | none => exact ⟨rfl, .inl ⟨k, by simp, by rwa [clk_none hc]⟩⟩
  | some i =>
    rw [clk_some hc he]
    generalize s.tckSide.startToggleTck = t at h
    obtain ⟨h1, h2, h3, h4, h5⟩ := h
    refine ⟨by simp [JtagChain.clkEvents, BridgeClk.req, h4, whenFire], ?_⟩
    cases k with
    | succ k =>
      -- at `k = 2` the first flop samples, at `k = 1` the second: no pulse yet
      have hpulse : s.clkSide.startPulseClk = false := by simp [BridgeClk.startPulseClk, h2, h3]
      have hk : k + 1 < 2 ↔ min k 1 < 1 := by omega
      refine .inl ⟨min k 1, by omega, ?_⟩
      constructor
      · simp [BridgeClk.step]
      · rw [if_congr hk rfl rfl] at h1
        exact h1
      · simpa [BridgeClk.step] using h2
      · simp [BridgeClk.step, BridgeClk.fsm, hpulse, h4]
      · simp [BridgeClk.step, BridgeClk.fsm, hpulse, h4, h5]
    | zero =>
      right
      have hpulse : s.clkSide.startPulseClk = true := by simp [BridgeClk.startPulseClk, h2, h3]
      constructor
      · simp [BridgeClk.step]
      · simpa [BridgeClk.step] using h1
      · simpa [BridgeClk.step] using h2
      · simp [BridgeClk.step, BridgeClk.fsm, h4, hpulse, h5]
      · cases hrw : s.dtm.rwTck with
        | true => refine .rdGo ?_ ?_ <;> simp [BridgeClk.step, BridgeClk.fsm, h4, hpulse, hrw]
        | false =>
          have hstart : Progress.start false = .write (s.clkSide.step true t s.dtm i.rsp).awDone
              (s.clkSide.step true t s.dtm i.rsp).wDone := by
            simp [BridgeClk.step, BridgeClk.fsm, h4, hpulse, Progress.start]
          rw [hstart]
          refine .wrGo ?_ ?_ ?_ ?_ <;> simp [BridgeClk.step, BridgeClk.fsm, h4, hpulse, hrw]

end Clk

/-! ## The transaction -/

/-- The transaction after an edge of `clk` with these answers. -/
def Progress.next (i : LiteRsp) : Progress → Progress
  | .write aw w =>
    if aw && w then if i.bvalid then .answered none i.bresp else .write aw w
    else .write (aw || i.awready) (w || i.wready)
  | .read false => .read i.arready
  | .read true => if i.rvalid then .answered (some i.rdata) i.rresp else .read true
  | .answered data resp => .answered data resp

/-- The transaction after an instant. -/
def Edge.progress (e : Edge) (p : Progress) : Progress := e.clk.elim p fun i => p.next i.rsp

theorem Progress.isRead_next (i : LiteRsp) (p : Progress) : (p.next i).isRead = p.isRead := by
  cases p with
  | write aw w =>
    simp only [Progress.next]
    split
    · split <;> rfl
    · rfl
  | read ar =>
    cases ar with
    | false => rfl
    | true =>
      simp only [Progress.next]
      split <;> rfl
  | answered data resp => rfl

section Busy

variable {s : JtagChain} {q : Spec} {i : ClkIn} {rw : Bool}

/-- The spec after `es`, where they are handshakes of the transaction. -/
def Moves (q : Spec) (es : List JEvent) (rw : Bool) (p : Progress) : Prop :=
  q.follow es = some { q with phase := .waiting rw p }

theorem Moves.nil {p : Progress} (phase : q.phase = .waiting rw p) : Moves q [] rw p := by
  rw [Moves, Spec.follow_nil, ← phase]

theorem Moves.append {es es' : List JEvent} {p p' : Progress} (h : Moves q es rw p)
    (h' : Moves { q with phase := .waiting rw p } es' rw p') : Moves q (es ++ es') rw p' := by
  rw [Moves, Spec.follow_append, h]
  exact h'

theorem Moves.of_axi {e : JEvent} {p : Progress} (hs : q.specStep e = (q.axi e).map fun ph => { q with phase := ph })
    (h : q.axi e = some (.waiting rw p)) : Moves q [e] rw p := by
  rw [Moves, Spec.follow_singleton, hs, h, Option.map_some]

theorem moves_aw {aw w ready : Bool} {a : Word32} (phase : q.phase = .waiting rw (.write aw w))
    (ha : q.addr = some a) : Moves q (whenFire (!aw) ready (.aw a)) rw (.write (aw || ready) w) := by
  cases aw with
  | true => exact Moves.nil phase
  | false =>
    cases ready with
    | false => exact Moves.nil phase
    | true => exact Moves.of_axi rfl (by simp only [Spec.axi, phase, ha, if_true, Bool.false_or])

theorem moves_w {aw w ready : Bool} {d : Word32} (phase : q.phase = .waiting rw (.write aw w))
    (hd : q.data = some d) : Moves q (whenFire (!w) ready (.w d 0xF)) rw (.write aw (w || ready)) := by
  cases w with
  | true => exact Moves.nil phase
  | false =>
    cases ready with
    | false => exact Moves.nil phase
    | true =>
      refine Moves.of_axi rfl ?_
      cases aw <;> simp only [Spec.axi, phase, hd, and_self, if_true, Bool.false_or]

/-- What an edge at the transaction brings: it goes on, or it is answered. -/
def BusyNext (c : BridgeClk) (q : Spec) (t rw : Bool) (es : List JEvent) (p : Progress) : Prop :=
  Moves q es rw p ∧
    (ClkBusy c q.addr q.data t p ∨ ∃ data resp, p = .answered data resp ∧ ClkAnswered c t data resp)

variable (sync1 : s.clkSide.startToggleSync1 = s.tckSide.startToggleTck)
  (sync2 : s.clkSide.startToggleSync2 = s.tckSide.startToggleTck)
  (done : s.clkSide.doneToggleClk = !s.tckSide.startToggleTck)
include sync1 sync2 done

theorem wrGo_step (phase : q.phase = .waiting rw (.write s.clkSide.awDone s.clkSide.wDone))
    (h : s.clkSide.state = .wrGo) (ha : q.addr = some s.clkSide.addrReg) (hd : q.data = some s.clkSide.wdataReg)
    (ho : (s.clkSide.awDone && s.clkSide.wDone) = false) :
    BusyNext (s.clkSide.step true s.tckSide.startToggleTck s.dtm i.rsp) q s.tckSide.startToggleTck rw
      (s.clkEvents i) ((Progress.write s.clkSide.awDone s.clkSide.wDone).next i.rsp) := by
  have hev : s.clkEvents i =
      whenFire (!s.clkSide.awDone) i.rsp.awready (.aw s.clkSide.addrReg) ++
        whenFire (!s.clkSide.wDone) i.rsp.wready (.w s.clkSide.wdataReg 0xF) := by
    simp [JtagChain.clkEvents, BridgeClk.req, h, whenFire]
  have hnext : (Progress.write s.clkSide.awDone s.clkSide.wDone).next i.rsp =
      .write (s.clkSide.awDone || i.rsp.awready) (s.clkSide.wDone || i.rsp.wready) := by
    rw [Progress.next, ho, if_neg (by simp)]
  rw [hev, hnext]
  refine ⟨(moves_aw phase ha).append (moves_w rfl hd), .inl ?_⟩
  constructor
  · simp [BridgeClk.step]
  · simpa [BridgeClk.step] using sync1
  · simpa [BridgeClk.step] using sync2
  · simpa [BridgeClk.step, BridgeClk.fsm, h] using done
  · cases hboth : (s.clkSide.awDone || i.rsp.awready) && (s.clkSide.wDone || i.rsp.wready) with
    | true =>
      simp only [Bool.and_eq_true] at hboth
      rw [hboth.1, hboth.2]
      exact .wrB (by simp [BridgeClk.step, BridgeClk.fsm, h, hboth])
    | false =>
      have hgo := @AtAxi.wrGo (s.clkSide.step true s.tckSide.startToggleTck s.dtm i.rsp) q.addr q.data
        (by simp [BridgeClk.step, BridgeClk.fsm, h, hboth])
        (by simpa [BridgeClk.step, BridgeClk.fsm, h] using ha) (by simpa [BridgeClk.step, BridgeClk.fsm, h] using hd)
        (by simpa [BridgeClk.step, BridgeClk.fsm, h] using hboth)
      simpa [BridgeClk.step, BridgeClk.fsm, h] using hgo

theorem wrB_step (phase : q.phase = .waiting rw (.write true true)) (h : s.clkSide.state = .wrB) :
    BusyNext (s.clkSide.step true s.tckSide.startToggleTck s.dtm i.rsp) q s.tckSide.startToggleTck rw
      (s.clkEvents i) ((Progress.write true true).next i.rsp) := by
  have hev : s.clkEvents i = whenFire i.rsp.bvalid true (.b i.rsp.bresp) := by
    simp [JtagChain.clkEvents, BridgeClk.req, h, whenFire]
  rw [hev, Progress.next, if_pos (by decide)]
  cases hb : i.rsp.bvalid with
  | true =>
    have hfol : Moves q [.b i.rsp.bresp] rw (.answered none i.rsp.bresp) :=
      Moves.of_axi rfl (by simp only [Spec.axi, phase])
    refine ⟨hfol, .inr ⟨_, _, rfl, ⟨?_, ?_, ?_, ?_, ?_⟩, ?_, by simp⟩⟩ <;>
      simp [BridgeClk.step, BridgeClk.fsm, h, hb, sync1, sync2, done]
  | false =>
    refine ⟨Moves.nil phase, .inl ⟨?_, ?_, ?_, ?_, .wrB ?_⟩⟩ <;>
      simp [BridgeClk.step, BridgeClk.fsm, h, hb, sync1, sync2, done]

theorem rdGo_step (phase : q.phase = .waiting rw (.read false)) (h : s.clkSide.state = .rdGo)
    (ha : q.addr = some s.clkSide.addrReg) :
    BusyNext (s.clkSide.step true s.tckSide.startToggleTck s.dtm i.rsp) q s.tckSide.startToggleTck rw
      (s.clkEvents i) ((Progress.read false).next i.rsp) := by
  have hev : s.clkEvents i = whenFire true i.rsp.arready (.ar s.clkSide.addrReg) := by
    simp [JtagChain.clkEvents, BridgeClk.req, h, whenFire]
  rw [hev, Progress.next]
  cases hr : i.rsp.arready with
  | true =>
    have hfol : Moves q [.ar s.clkSide.addrReg] rw (.read true) :=
      Moves.of_axi rfl (by simp only [Spec.axi, phase, ha, if_true])
    refine ⟨hfol, .inl ⟨?_, ?_, ?_, ?_, .rdR ?_⟩⟩ <;>
      simp [BridgeClk.step, BridgeClk.fsm, h, hr, sync1, sync2, done]
  | false =>
    refine ⟨Moves.nil phase, .inl ⟨?_, ?_, ?_, ?_, .rdGo ?_ ?_⟩⟩ <;>
      simp [BridgeClk.step, BridgeClk.fsm, h, hr, sync1, sync2, done, ha]

theorem rdR_step (phase : q.phase = .waiting rw (.read true)) (h : s.clkSide.state = .rdR) :
    BusyNext (s.clkSide.step true s.tckSide.startToggleTck s.dtm i.rsp) q s.tckSide.startToggleTck rw
      (s.clkEvents i) ((Progress.read true).next i.rsp) := by
  have hev : s.clkEvents i = whenFire i.rsp.rvalid true (.r i.rsp.rdata i.rsp.rresp) := by
    simp [JtagChain.clkEvents, BridgeClk.req, h, whenFire]
  rw [hev, Progress.next]
  cases hr : i.rsp.rvalid with
  | true =>
    have hfol : Moves q [.r i.rsp.rdata i.rsp.rresp] rw (.answered (some i.rsp.rdata) i.rsp.rresp) :=
      Moves.of_axi rfl (by simp only [Spec.axi, phase])
    refine ⟨hfol, .inr ⟨_, _, rfl, ⟨?_, ?_, ?_, ?_, ?_⟩, ?_, ?_⟩⟩ <;>
      simp [BridgeClk.step, BridgeClk.fsm, h, hr, sync1, sync2, done]
  | false =>
    refine ⟨Moves.nil phase, .inl ⟨?_, ?_, ?_, ?_, .rdR ?_⟩⟩ <;>
      simp [BridgeClk.step, BridgeClk.fsm, h, hr, sync1, sync2, done]

end Busy

theorem ClkBusy.step {s : JtagChain} {e : Edge} {q : Spec} {rw : Bool} {p : Progress}
    (h : ClkBusy s.clkSide q.addr q.data s.tckSide.startToggleTck p) (he : e.ResetIs true)
    (phase : q.phase = .waiting rw p) :
    BusyNext (s.step e).clkSide q s.tckSide.startToggleTck rw (e.clk.elim [] s.clkEvents) (e.progress p) := by
  cases hc : e.clk with
  | none =>
    rw [clk_none hc, Edge.progress, hc]
    exact ⟨Moves.nil phase, .inl h⟩
  | some i =>
    rw [clk_some hc he, Edge.progress, hc]
    obtain ⟨h1, h2, -, h4, h5⟩ := h
    cases h5 with
    | wrGo hs ha hd ho => exact wrGo_step h1 h2 h4 phase hs ha hd ho
    | wrB hs => exact wrB_step h1 h2 h4 phase hs
    | rdGo hs ha => exact rdGo_step h1 h2 h4 phase hs ha
    | rdR hs => exact rdR_step h1 h2 h4 phase hs

end RiscvSoc.Jtag
