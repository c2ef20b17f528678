import RiscvSoc.Jtag.Sequences
import RiscvSoc.Lib.Monitor
/-!
# What BUSY tells the host

The monitor of BUSY and of the result that crosses back, for a host that may scan
anything; and the runs in which a flop that samples a changing bit takes either of
its values.
-/

namespace RiscvSoc.Jtag

open Monitor

/-! ## The monitor -/

/-- The transaction after a handshake of its own. -/
def Progress.take : Progress → JEvent → Option Progress
  | .write false w, .aw _ => some (.write true w)
  | .write aw false, .w _ _ => some (.write aw true)
  | .write true true, .b resp => some (.answered none resp)
  | .read false, .ar _ => some (.read true)
  | .read true, .r d resp => some (.answered (some d) resp)
  | _, _ => none

/-- Where the last accepted START is. `outstanding none` has had no handshake;
after the response an edge of `tck` each brings the completion to the first and to
the second flop of the synchroniser. -/
inductive Wait
  | quiet
  | outstanding (p : Option Progress)
  | passing (second : Bool)
  deriving DecidableEq, Repr

namespace Wait

/-- After an update with START = 1. -/
def started : Wait → Wait
  | outstanding p => outstanding p
  | quiet | passing _ => outstanding none

/-- After an edge of `tck`. -/
def tick : Wait → Wait
  | passing false => passing true
  | passing true => quiet
  | w => w

def isOutstanding : Wait → Bool
  | outstanding _ => true
  | quiet | passing _ => false

end Wait

/-- An edge of `tck` carries BUSY and RESP_OK of a capture of AXI_CTRL, the word that
`data_reg` takes when BUSY falls, and whether AXI_CTRL is updated with START = 1. -/
inductive TrackEvent
  | tck (capture : Option (Bool × Bool)) (latch : Option Word32) (start : Bool)
  | axi (e : JEvent)
  deriving DecidableEq, Repr

/-- `last` is the data and the response of the last transaction. -/
structure Track where
  last : Option (Option Word32 × Resp)
  wait : Wait
  deriving DecidableEq, Repr

namespace Track

variable (s : Track)

def init : Track := ⟨none, .quiet⟩

/-- RESP_OK is that of the last response. -/
def okFits (ok : Bool) : Bool := s.last.all fun l => ok == decide (l.2 = axiRespOkay)

/-- A capture may read `c`. -/
def reads (c : Bool × Bool) : Bool :=
  match s.wait with
  | .quiet => !c.1 && s.okFits c.2
  | .outstanding _ | .passing false => c.1
  | .passing true => c.1 || s.okFits c.2

/-- The latched word is the data of the last transaction, where that was a read. -/
def latchFits (word : Word32) : Bool := s.last.any fun l => l.1.all (word == ·)

/-- The state after a handshake that leaves the transaction at `p`. -/
def moved : Progress → Track
  | .answered data resp => ⟨some (data, resp), .passing false⟩
  | p => { s with wait := .outstanding (some p) }

def step : TrackEvent → Option Track
  | .tck capture latch start =>
    if capture.all s.reads && latch.all s.latchFits then
      some { s with wait := if start then s.wait.started else s.wait.tick }
    else none
  | .axi e =>
    match s.wait with
    | .outstanding none => (((Progress.write false false).take e).or ((Progress.read false).take e)).map s.moved
    | .outstanding (some p) => (p.take e).map s.moved
    | .quiet | .passing _ => none

end Track

/-- No update with START = 1 before the response to the last START. -/
def startRule (q : Track) : TrackEvent → Bool
  | .tck _ _ start => !(start && q.wait.isOutstanding)
  | .axi _ => true

/-! ## The events of the chain -/

namespace JtagChain

variable (s : JtagChain)

/-- The edge updates AXI_CTRL with START = 1. -/
def starts : Bool := s.dtm.updates irAxiCtrl && s.dtm.drShift.getLsbD 0

def tckTrack (i : TckIn) : TrackEvent :=
  let word := s.dtm.captured (s.dtmIn i)
  .tck
    (if s.dtm.tap = .captureDr && s.dtm.irReg = irAxiCtrl then some (word.getLsbD 0, word.getLsbD 1) else none)
    (if s.dtm.latches (s.dtmIn i) && !s.dtm.updates irAxiData then some (s.dtm.step (s.dtmIn i) i.resetn).dataReg
      else none)
    s.starts

def trackEvents (e : Edge) : List TrackEvent :=
  e.tck.elim [] (fun i => [s.tckTrack i]) ++ (e.clk.elim [] s.clkEvents).map .axi

end JtagChain

def JtagRun.trackLog (r : JtagRun) : ℕ → List TrackEvent
  | 0 => []
  | n + 1 => trackLog r n ++ (r.st n).trackEvents (r.edge n)

/-! ## Sampling a bit that changes -/

/-- For each first flop of a synchroniser, whether it takes the new value of its
source where that changes at the edge that samples it; for RDATA bit by bit. -/
structure Resolve where
  start : Bool
  done : Bool
  respOk : Bool
  rdata : Word32
  deriving DecidableEq, Repr

/-- The bits of `new` where `sel` is set, of `old` elsewhere. -/
def mix (sel old new : Word32) : Word32 := (new &&& sel) ||| (old &&& ~~~sel)

namespace JtagChain

variable (s : JtagChain) (e : Edge) (x : Resolve)

/-- What `start_toggle_sync1` takes. -/
def sampledStart : Bool := if x.start then (s.step e).tckSide.startToggleTck else s.tckSide.startToggleTck

/-- What the first flops on `tck` take. -/
def sampled : BridgeClk :=
  { s.clkSide with
    doneToggleClk := if x.done then (s.step e).clkSide.doneToggleClk else s.clkSide.doneToggleClk
    respOk := if x.respOk then (s.step e).clkSide.respOk else s.clkSide.respOk
    rdataReg := mix x.rdata s.clkSide.rdataReg (s.step e).clkSide.rdataReg }

/-- An instant. A source changes only at an edge of its own clock, so that `x` matters
only where both clocks have one. -/
def stepMixed : JtagChain where
  dtm := (s.step e).dtm
  tckSide :=
    match e.tck with
    | some i => s.tckSide.step i.resetn s.dtm.startPulseTck (s.sampled e x)
    | none => s.tckSide
  clkSide :=
    match e.clk with
    | some i => s.clkSide.step i.resetn (s.sampledStart e x) s.dtm i.rsp
    | none => s.clkSide

/-- Where `done_toggle_sync1` takes the toggle of a response at the edge that brings
it, `resp_ok_sync1` and every bit of `rdata_sync1` take theirs, or have no other. -/
def Coherent : Prop :=
  ∀ i, e.tck.isSome = true → e.clk = some i → x.done = true →
    (s.clkSide.state = .wrB → i.rsp.bvalid = true →
      x.respOk = true ∨ s.clkSide.respOk = decide (i.rsp.bresp = axiRespOkay)) ∧
    (s.clkSide.state = .rdR → i.rsp.rvalid = true →
      (x.respOk = true ∨ s.clkSide.respOk = decide (i.rsp.rresp = axiRespOkay)) ∧
        mix x.rdata s.clkSide.rdataReg i.rsp.rdata = i.rsp.rdata)

end JtagChain

/-- A run with the values that its first flops take. -/
structure MixedRun extends JtagRun where
  resolve : ℕ → Resolve

namespace MixedRun

variable (r : MixedRun)

def st : ℕ → JtagChain
  | 0 => r.toJtagRun.st 0
  | n + 1 => (st n).stepMixed (r.edge n) (r.resolve n)

def trackLog : ℕ → List TrackEvent
  | 0 => []
  | n + 1 => trackLog n ++ (r.st n).trackEvents (r.edge n)

end MixedRun

/-! ## The old value everywhere -/

/-- Every first flop takes the old value, as registers in a simulation do. -/
def Resolve.old : Resolve := ⟨false, false, false, 0⟩

theorem mix_getLsbD (sel old new : Word32) (k : ℕ) :
    (mix sel old new).getLsbD k = if sel.getLsbD k then new.getLsbD k else old.getLsbD k := by
  by_cases hk : k < 32
  · cases hs : sel.getLsbD k <;> simp_all [mix]
  · simp [BitVec.getLsbD_of_ge _ _ (Nat.le_of_not_lt hk)]

theorem mix_none (old new : Word32) : mix 0 old new = old := by
  refine BitVec.eq_of_getLsbD_eq fun k _ => ?_
  simp [mix_getLsbD]

theorem mix_same (sel v : Word32) : mix sel v v = v := by
  refine BitVec.eq_of_getLsbD_eq fun k _ => ?_
  simp [mix_getLsbD]

theorem stepMixed_old (s : JtagChain) (e : Edge) : s.stepMixed e .old = s.step e := by
  have hsampled : s.sampled e .old = s.clkSide := by
    rw [JtagChain.sampled, Resolve.old, mix_none]
    rfl
  simp only [JtagChain.stepMixed, hsampled]
  rfl

theorem coherent_old (s : JtagChain) (e : Edge) : s.Coherent e .old := by
  simp [JtagChain.Coherent, Resolve.old]

theorem JtagRun.toMixed_st (r : JtagRun) (n : ℕ) : MixedRun.st ⟨r, fun _ => .old⟩ n = r.st n := by
  induction n with
  | zero => rfl
  | succ n ih => rw [MixedRun.st, ih, stepMixed_old, JtagRun.st]

theorem JtagRun.toMixed_trackLog (r : JtagRun) (n : ℕ) : MixedRun.trackLog ⟨r, fun _ => .old⟩ n = r.trackLog n := by
  induction n with
  | zero => rfl
  | succ n ih => rw [MixedRun.trackLog, ih, JtagRun.toMixed_st, JtagRun.trackLog]

end RiscvSoc.Jtag
