import RiscvSoc.Jtag.Spec
/-!
# Runs of the JTAG chain

A run is reset on both clocks and then goes on with edges in any order. Its log
has the events of each instant, those on `tck` first: what happens on `clk` in
the same instant is not seen by them.
-/

namespace RiscvSoc.Jtag

namespace JtagChain

variable (s : JtagChain)

def tckEvents (i : TckIn) : List JEvent :=
  match s.dtm.tap with
  | .captureDr => [.capture s.dtm.irReg (s.dtm.captured (s.dtmIn i))]
  | .shiftDr => [.shift i.tdi]
  | .updateDr => [.update s.dtm.irReg s.tckSide.busyTck]
  | .testLogicReset => [.testLogicReset]
  | _ => []

def clkEvents (i : ClkIn) : List JEvent :=
  let req := s.clkSide.req
  whenFire req.awvalid i.rsp.awready (.aw req.awaddr) ++
  whenFire req.wvalid i.rsp.wready (.w req.wdata req.wstrb) ++
  whenFire i.rsp.bvalid req.bready (.b i.rsp.bresp) ++
  whenFire req.arvalid i.rsp.arready (.ar req.araddr) ++
  whenFire i.rsp.rvalid req.rready (.r i.rsp.rdata i.rsp.rresp)

def events (e : Edge) : List JEvent := e.tck.elim [] s.tckEvents ++ e.clk.elim [] s.clkEvents

end JtagChain

/-- No edge of the instant is in, or out of, reset. -/
def Edge.ResetIs (e : Edge) (resetn : Bool) : Prop :=
  (∀ i, e.tck = some i → i.resetn = resetn) ∧ ∀ i, e.clk = some i → i.resetn = resetn

structure JtagRun where
  powerUp : JtagChain
  resetEdges : List Edge
  inReset : ∀ e ∈ resetEdges, e.ResetIs false
  tckReset : ∃ e ∈ resetEdges, e.tck.isSome
  clkReset : ∃ e ∈ resetEdges, e.clk.isSome
  edge : ℕ → Edge
  running : ∀ n, (edge n).ResetIs true

namespace JtagRun

variable (r : JtagRun)

/-- The registers before instant `n`. -/
def st : ℕ → JtagChain
  | 0 => r.resetEdges.foldl JtagChain.step r.powerUp
  | n + 1 => (st n).step (r.edge n)

/-- The events of the first `n` instants. -/
def log : ℕ → List JEvent
  | 0 => []
  | n + 1 => log n ++ (r.st n).events (r.edge n)

end JtagRun

/-! ## After reset -/

/-- What a reset leaves on the `tck` side, whatever `clk` does. -/
structure TckCleared (s : JtagChain) : Prop where
  tap : s.dtm.tap = .testLogicReset
  irReg : s.dtm.irReg = irIdcode
  pulse : s.dtm.startPulseTck = false
  prev : s.dtm.bridgeBusyPrev = false
  toggles : s.tckSide.startToggleTck = false ∧ s.tckSide.doneToggleSync1 = false ∧ s.tckSide.doneToggleSync2 = false

/-- What a reset leaves on the `clk` side. -/
structure ClkCleared (s : JtagChain) : Prop where
  syncs : s.clkSide.startToggleSync1 = false ∧ s.clkSide.startToggleSync2 = false ∧ s.clkSide.startToggleSync2D = false
  state : s.clkSide.state = .idle
  done : s.clkSide.doneToggleClk = false

theorem tckCleared_step {s : JtagChain} {e : Edge} (he : e.ResetIs false) (h : e.tck.isSome ∨ TckCleared s) :
    TckCleared (s.step e) := by
  cases ht : e.tck with
  | some i =>
    have hi := he.1 i ht
    constructor <;> simp [JtagChain.step, JtagChain.tckStep, JtagDtm.step, BridgeTck.step, ht, hi]
  | none =>
    have h := h.resolve_left (by simp [ht])
    constructor <;> simp [JtagChain.step, ht, h.tap, h.irReg, h.pulse, h.prev, h.toggles]

theorem clkCleared_step {s : JtagChain} {e : Edge} (he : e.ResetIs false) (h : e.clk.isSome ∨ ClkCleared s) :
    ClkCleared (s.step e) := by
  cases ht : e.clk with
  | some i =>
    have hi := he.2 i ht
    constructor <;> simp [JtagChain.step, JtagChain.clkStep, BridgeClk.step, ht, hi]
  | none =>
    have h := h.resolve_left (by simp [ht])
    constructor <;> simp [JtagChain.step, ht, h.syncs, h.state, h.done]

/-- Edges in reset, one of them with an edge that clears, leave what it clears. -/
theorem foldl_cleared {P : JtagChain → Prop} {ticks : Edge → Bool}
    (step : ∀ s e, e.ResetIs false → (ticks e = true ∨ P s) → P (s.step e)) {es : List Edge}
    (hes : ∀ e ∈ es, e.ResetIs false) (s : JtagChain) (h : (∃ e ∈ es, ticks e = true) ∨ P s) :
    P (es.foldl JtagChain.step s) := by
  induction es generalizing s with
  | nil =>
    rcases h with ⟨e, he, -⟩ | h
    · simp at he
    · exact h
  | cons e es ih =>
    have he := hes e List.mem_cons_self
    refine ih (fun e' he' => hes e' (List.mem_cons_of_mem _ he')) _ ?_
    rcases h with ⟨e', he', ht⟩ | h
    · rcases List.mem_cons.1 he' with rfl | he'
      · exact .inr (step s e' he (.inl ht))
      · exact .inl ⟨e', he', ht⟩
    · exact .inr (step s e he (.inr h))

theorem JtagRun.cleared (r : JtagRun) : TckCleared (r.st 0) ∧ ClkCleared (r.st 0) :=
  ⟨foldl_cleared (fun _ _ he h => tckCleared_step he h) r.inReset _ (.inl r.tckReset),
    foldl_cleared (fun _ _ he h => clkCleared_step he h) r.inReset _ (.inl r.clkReset)⟩

end RiscvSoc.Jtag
