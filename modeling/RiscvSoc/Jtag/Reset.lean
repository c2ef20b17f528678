import RiscvSoc.Jtag.Track
/-!
# A reset of the whole system

`soc_top.v` resets each clock domain of the JTAG chain through two flops of that
domain, cleared at once when `resetn` falls and set by the domain's own edges. The
flops of the chain itself are reset at edges of their clock only.
-/

namespace RiscvSoc.Jtag

/-- The level of `resetn`, and the edges at it. -/
structure SocInstant extends Instant where
  resetn : Bool

/-- The chain in `soc_top`, with the reset synchronisers of both domains. -/
structure SocJtag where
  chain : JtagChain
  resetnClkMeta : Bool
  resetnClkSync : Bool
  resetnTckMeta : Bool
  resetnTckSync : Bool

namespace SocJtag

variable (s : SocJtag) (x : SocInstant)

/-- What the instances of a domain see at an edge; a low `resetn` has cleared it. -/
def clkResetn : Bool := x.resetn && s.resetnClkSync

def tckResetn : Bool := x.resetn && s.resetnTckSync

def step : SocJtag where
  chain :=
    s.chain.step
      ⟨x.tck.map fun p => ⟨s.tckResetn x, p.1, p.2⟩, x.clk.map fun rsp => ⟨s.clkResetn x, rsp⟩⟩
  resetnClkMeta := x.resetn && (x.clk.isSome || s.resetnClkMeta)
  resetnClkSync := x.resetn && if x.clk.isSome then s.resetnClkMeta else s.resetnClkSync
  resetnTckMeta := x.resetn && (x.tck.isSome || s.resetnTckMeta)
  resetnTckSync := x.resetn && if x.tck.isSome then s.resetnTckMeta else s.resetnTckSync

/-- The bridge has a VALID up at an edge of `clk` out of reset. -/
def issues : Bool :=
  x.clk.isSome && s.clkResetn x &&
    (s.chain.clkSide.req.awvalid || s.chain.clkSide.req.wvalid || s.chain.clkSide.req.arvalid)

/-- The host updates AXI_CTRL with START = 1, out of reset. -/
def hostStarts : Bool := x.tck.isSome && s.tckResetn x && s.chain.starts

/-- The state before instant `n` of `f`. -/
def after (f : ℕ → SocInstant) : ℕ → SocJtag
  | 0 => s
  | n + 1 => (after f n).step (f n)

/-- With `resetn` high, no order of edges brings a VALID before a START of the host. -/
def SilentUntilStart : Prop :=
  ∀ f : ℕ → SocInstant, (∀ n, (f n).resetn = true) → ∀ n, (∀ k < n, (s.after f k).hostStarts (f k) = false) →
    (s.after f n).issues (f n) = false

end SocJtag

/-! ## What a reset leaves -/

/-- The start toggle is clear, and no pulse flips it once `tck` is out of reset. -/
structure TckSilent (s : SocJtag) : Prop where
  toggle : s.chain.tckSide.startToggleTck = false
  pulse (h : s.resetnTckMeta = true) : s.chain.dtm.startPulseTck = false
  order (h : s.resetnTckSync = true) : s.resetnTckMeta = true

/-- Once out of reset the `clk` side is idle and its flops have the start toggle. -/
structure ClkSilent (s : SocJtag) : Prop where
  idle (h : s.resetnClkMeta = true) : ClkCleared s.chain
  order (h : s.resetnClkSync = true) : s.resetnClkMeta = true

section Step

variable {s : SocJtag} {x : SocInstant}

theorem tckSilent_step (h : TckSilent s) (hs : s.hostStarts x = false) : TckSilent (s.step x) := by
  cases ht : x.tck with
  | none =>
    refine ⟨?_, fun hm => ?_, fun hm => ?_⟩
    · simpa [SocJtag.step, JtagChain.step, ht] using h.toggle
    · have hm' : s.resetnTckMeta = true := by simp_all [SocJtag.step]
      simpa [SocJtag.step, JtagChain.step, ht] using h.pulse hm'
    · have hm' : x.resetn = true ∧ s.resetnTckSync = true := by simp_all [SocJtag.step]
      simp [SocJtag.step, ht, hm'.1, h.order hm'.2]
  | some p =>
    have hpulse : (s.step x).chain.dtm.startPulseTck = false := by
      cases hr : s.tckResetn x with
      | false => simp [SocJtag.step, JtagChain.step, JtagChain.tckStep, JtagDtm.step, ht, hr]
      | true =>
        simp only [SocJtag.step, JtagChain.step, JtagChain.tckStep, ht, Option.map_some, hr, JtagDtm.step_startPulseTck]
        simpa [SocJtag.hostStarts, ht, hr, JtagChain.starts] using hs
    refine ⟨?_, fun _ => hpulse, fun hm => ?_⟩
    · cases hr : s.tckResetn x with
      | false => simp [SocJtag.step, JtagChain.step, JtagChain.tckStep, BridgeTck.step, ht, hr]
      | true =>
        have hsync : s.resetnTckSync = true := by simp_all [SocJtag.tckResetn]
        simp [SocJtag.step, JtagChain.step, JtagChain.tckStep, BridgeTck.step, ht, hr, h.toggle, h.pulse (h.order hsync)]
    · have hx : x.resetn = true := by simp_all [SocJtag.step]
      simp [SocJtag.step, ht, hx]

theorem clkSilent_step (htck : s.chain.tckSide.startToggleTck = false) (h : ClkSilent s) : ClkSilent (s.step x) := by
  cases hc : x.clk with
  | none =>
    refine ⟨fun hm => ?_, fun hm => ?_⟩
    · have hm' : s.resetnClkMeta = true := by simp_all [SocJtag.step]
      obtain ⟨h1, h2, h3⟩ := h.idle hm'
      constructor <;> simpa [SocJtag.step, JtagChain.step, hc]
    · have hm' : x.resetn = true ∧ s.resetnClkSync = true := by simp_all [SocJtag.step]
      simp [SocJtag.step, hc, hm'.1, h.order hm'.2]
  | some rsp =>
    refine ⟨fun _ => ?_, fun hm => ?_⟩
    · cases hr : s.clkResetn x with
      | false => constructor <;> simp [SocJtag.step, JtagChain.step, JtagChain.clkStep, BridgeClk.step, hc, hr]
      | true =>
        have hsync : s.resetnClkSync = true := by simp_all [SocJtag.clkResetn]
        obtain ⟨⟨h1, h2, h3⟩, hst, hd⟩ := h.idle (h.order hsync)
        have hpulse : s.chain.clkSide.startPulseClk = false := by simp [BridgeClk.startPulseClk, h2, h3]
        constructor <;>
          simp [SocJtag.step, JtagChain.step, JtagChain.clkStep, BridgeClk.step, BridgeClk.fsm, hc, hr, htck, h1, h2,
            hst, hd, hpulse]
    · have hx : x.resetn = true := by simp_all [SocJtag.step]
      simp [SocJtag.step, hc, hx]

/-- Nothing is on the bus where the `clk` side is idle. -/
theorem ClkSilent.issues (h : ClkSilent s) : s.issues x = false := by
  cases hr : s.clkResetn x with
  | false => simp [SocJtag.issues, hr]
  | true =>
    have hsync : s.resetnClkSync = true := by simp_all [SocJtag.clkResetn]
    have hidle := (h.idle (h.order hsync)).state
    simp [SocJtag.issues, BridgeClk.req, hidle]

end Step

/-! ## The reset window -/

section Window

variable {s : SocJtag} {ws : List SocInstant}

/-- While `resetn` is low the start toggle is cleared at an edge of `tck`. -/
theorem window_toggle (low : ∀ x ∈ ws, x.resetn = false) :
    (ws.foldl SocJtag.step s).chain.tckSide.startToggleTck =
      (s.chain.tckSide.startToggleTck && ws.all fun x => x.tck.isNone) := by
  induction ws generalizing s with
  | nil => simp
  | cons x ws ih =>
    rw [List.foldl_cons, ih fun y hy => low y (List.mem_cons_of_mem _ hy)]
    have hx := low x List.mem_cons_self
    cases ht : x.tck with
    | none => simp [SocJtag.step, JtagChain.step, ht]
    | some p => simp [SocJtag.step, JtagChain.step, JtagChain.tckStep, BridgeTck.step, SocJtag.tckResetn, ht, hx]

/-- It leaves both synchronisers clear. -/
theorem window_syncs (low : ∀ x ∈ ws, x.resetn = false) (hne : ws ≠ []) :
    let s' := ws.foldl SocJtag.step s
    s'.resetnClkMeta = false ∧ s'.resetnClkSync = false ∧ s'.resetnTckMeta = false ∧ s'.resetnTckSync = false := by
  obtain ⟨ws, x, rfl⟩ := List.eq_nil_or_concat ws |>.resolve_left hne
  have hx : x.resetn = false := low x (by simp)
  simp [SocJtag.step, hx]

end Window

/-- A slave that is never ready; `tck` rests. -/
def clkOnly : SocInstant := ⟨⟨none, some ⟨false, false, false, 0, false, false, 0, 0⟩⟩, true⟩

/-- A start toggle that the reset has left set is seen as a new START once `clk` is
out of reset: two edges of it in reset, two through the synchroniser, one for the pulse. -/
theorem stale_toggle_issues {s : SocJtag} (hm : s.resetnClkMeta = false) (hs : s.resetnClkSync = false)
    (ht : s.chain.tckSide.startToggleTck = true) : (s.after (fun _ => clkOnly) 5).issues clkOnly = true := by
  cases hrw : s.chain.dtm.rwTck <;>
    simp [SocJtag.after, SocJtag.step, SocJtag.issues, SocJtag.clkResetn, JtagChain.step, JtagChain.clkStep, clkOnly, hm,
      hs, ht, hrw, BridgeClk.step, BridgeClk.fsm, BridgeClk.req, BridgeClk.startPulseClk]

/-- Both sides silent, and so for ever. -/
theorem silent_of_silent {s : SocJtag} (ht : TckSilent s) (hc : ClkSilent s) : s.SilentUntilStart := by
  intro f _ n hs
  have hboth : TckSilent (s.after f n) ∧ ClkSilent (s.after f n) := by
    induction n with
    | zero => exact ⟨ht, hc⟩
    | succ n ih =>
      obtain ⟨ht', hc'⟩ := ih fun k hk => hs k (by omega)
      exact ⟨tckSilent_step ht' (hs n (by omega)), clkSilent_step ht'.toggle hc'⟩
  exact hboth.2.issues

/-- The bridge is silent after a reset, in whatever order the clocks go on, exactly
where the start toggle was clear before it or `tck` had an edge in it. -/
theorem reset_silent_iff (s : SocJtag) (ws : List SocInstant) (hne : ws ≠ []) (low : ∀ x ∈ ws, x.resetn = false) :
    (ws.foldl SocJtag.step s).SilentUntilStart ↔
      s.chain.tckSide.startToggleTck = false ∨ ∃ x ∈ ws, x.tck.isSome = true := by
  obtain ⟨hcm, hcs, htm, hts⟩ := window_syncs (s := s) low hne
  have htog := window_toggle (s := s) low
  constructor
  · intro h
    by_contra hc
    simp only [not_or, not_exists, not_and, Bool.not_eq_true, Bool.not_eq_false] at hc
    have hset : (ws.foldl SocJtag.step s).chain.tckSide.startToggleTck = true := by
      rw [htog, hc.1, Bool.true_and, List.all_eq_true]
      intro x hx
      simpa using hc.2 x hx
    have hsilent := h (fun _ => clkOnly) (fun _ => rfl) 5 fun k _ => by simp [SocJtag.hostStarts, clkOnly]
    rw [stale_toggle_issues hcm hcs hset] at hsilent
    exact absurd hsilent (by decide)
  · intro h
    have hclear : (ws.foldl SocJtag.step s).chain.tckSide.startToggleTck = false := by
      rw [htog]
      rcases h with h | ⟨x, hx, hx'⟩
      · rw [h, Bool.false_and]
      · rw [Bool.and_eq_false_iff, List.all_eq_false]
        exact .inr ⟨x, hx, by simpa [← Option.isSome_iff_ne_none] using hx'⟩
    refine silent_of_silent ⟨hclear, ?_, ?_⟩ ⟨?_, ?_⟩
    · simp [htm]
    · simp [hts]
    · simp [hcm]
    · simp [hcs]

/-- Power up, a reset on both clocks, and a write that its polls find complete. -/
def usedState : SocJtag :=
  let powerUp : SocJtag := ⟨(JtagRun.script [] restInstant).powerUp, false, false, false, false⟩
  let pins := List.replicate 4 (true, false) ++ (false, false) :: irScan irAxiAddr ++ drScan 0x10000000 ++
    irScan irAxiData ++ drScan 0xCAFE ++ irScan irAxiCtrl ++ drScan 1 ++ drScan 0 ++ drScan 0
  (⟨restInstant, false⟩ :: (lockstep pins).map fun x => ⟨x, true⟩).foldl SocJtag.step powerUp

/-- One edge of `tck` in the reset. -/
theorem reset_silent_iff_usedState : (usedState.step ⟨restInstant, false⟩).SilentUntilStart :=
  (reset_silent_iff usedState [⟨restInstant, false⟩] (by simp) (by simp)).2
    (.inr ⟨_, List.mem_singleton_self _, rfl⟩)

set_option maxRecDepth 100000 in
/-- A reset in which `tck` rests: the write is on the bus again. -/
theorem usedState_not_silent :
    ¬ ((List.replicate 3 { clkOnly with resetn := false }).foldl SocJtag.step usedState).SilentUntilStart := by
  intro h
  have hsilent := h (fun _ => clkOnly) (fun _ => rfl) 5 fun k _ => by simp [SocJtag.hostStarts, clkOnly]
  have hissues : (((List.replicate 3 { clkOnly with resetn := false }).foldl SocJtag.step usedState).after
      (fun _ => clkOnly) 5).issues clkOnly = true := by
    decide +kernel
  rw [hissues] at hsilent
  exact absurd hsilent (by decide)

end RiscvSoc.Jtag
