import RiscvSoc.Jtag.Bridge
/-!
# What the JTAG bridge is for

The events that the host and the AXI slave see, and the transactions they make
up: `specStep` says what the bridge may do next, the rules at the end what the
host does. Neither mentions a synchroniser.
-/

namespace RiscvSoc.Jtag

/-- `capture` carries the word loaded in Capture-DR, `shift` a bit shifted in,
`update` the level of BUSY in Update-DR; the others are handshakes of the AXI4-Lite
master port. -/
inductive JEvent
  | capture (ir : BitVec 4) (word : Word32)
  | shift (tdi : Bool)
  | update (ir : BitVec 4) (busy : Bool)
  | testLogicReset
  | aw (addr : Word32)
  | w (data : Word32) (strb : BitVec 4)
  | b (resp : Resp)
  | ar (addr : Word32)
  | r (data : Word32) (resp : Resp)
  deriving DecidableEq, Repr

/-- The word that 32 shifted bits leave in a data register. -/
def wordOf (bits : List Bool) : Word32 := bits.foldl shiftIn 0

/-- How far the AXI transaction is. -/
inductive Progress
  | write (aw w : Bool)
  | read (ar : Bool)
  | answered (data : Option Word32) (resp : Resp)
  deriving DecidableEq, Repr

def Progress.start (rw : Bool) : Progress := if rw then .read false else .write false false

/-- `waiting`: from the scan with START to the capture that reads BUSY = 0. -/
inductive HostPhase
  | idle
  | waiting (rw : Bool) (p : Progress)
  deriving DecidableEq, Repr

/-- What the host knows: the contents of AXI_ADDR and AXI_DATA once it has scanned
them, whether the last response was OKAY, and the bits of the scan it is in. -/
structure Spec where
  addr : Option Word32
  data : Option Word32
  ok : Option Bool
  bits : List Bool
  phase : HostPhase
  deriving DecidableEq, Repr

namespace Spec

def init : Spec := ⟨none, none, none, [], .idle⟩

/-- A capture of AXI_CTRL. BUSY = 0 needs the response, and ends the wait with it. -/
def captureCtrl (s : Spec) (busy ok : Bool) : Option Spec :=
  match s.phase, busy with
  | .idle, false => if s.ok = none ∨ s.ok = some ok then some s else none
  | .idle, true => none
  | .waiting _ _, true => some s
  | .waiting _ (.answered data resp), false =>
    if ok = decide (resp = axiRespOkay) then
      some { s with data := data.or s.data, ok := some ok, phase := .idle }
    else none
  | .waiting _ _, false => none

theorem captureCtrl_idle {s : Spec} {ok : Bool} (h : s.phase = .idle) (hok : ∀ b, s.ok = some b → ok = b) :
    s.captureCtrl false ok = some s := by
  simp only [captureCtrl, h]
  rw [if_pos]
  cases hs : s.ok with
  | none => exact .inl rfl
  | some b => exact .inr (by rw [hok b hs])

theorem captureCtrl_busy {s : Spec} {rw ok : Bool} {p : Progress} (h : s.phase = .waiting rw p) :
    s.captureCtrl true ok = some s := by
  simp only [captureCtrl, h]

theorem captureCtrl_answered {s : Spec} {rw : Bool} {data : Option Word32} {resp : Resp}
    (h : s.phase = .waiting rw (.answered data resp)) :
    s.captureCtrl false (decide (resp = axiRespOkay)) =
      some { s with data := data.or s.data, ok := some (decide (resp = axiRespOkay)), phase := .idle } := by
  simp only [captureCtrl, h, if_true]

/-- An update of a full scan. -/
def updateReg (s : Spec) (ir : BitVec 4) : Spec :=
  let word := wordOf s.bits
  if ir = irAxiAddr then { s with addr := some word }
  else if ir = irAxiData then { s with data := some word }
  else if ir = irAxiCtrl ∧ word.getLsbD 0 ∧ s.phase = .idle then
    { s with phase := .waiting (word.getLsbD 1) (.start (word.getLsbD 1)) }
  else s

theorem updateReg_idle {s : Spec} (h : s.phase = .idle) (ir : BitVec 4) :
    s.updateReg ir =
      { s with
        addr := if ir = irAxiAddr then some (wordOf s.bits) else s.addr
        data := if ir = irAxiData then some (wordOf s.bits) else s.data
        phase :=
          if ir = irAxiCtrl ∧ (wordOf s.bits).getLsbD 0 = true then
            .waiting ((wordOf s.bits).getLsbD 1) (.start ((wordOf s.bits).getLsbD 1))
          else .idle } := by
  unfold updateReg
  by_cases h1 : ir = irAxiAddr
  · subst h1
    simp [h, irAxiAddr, irAxiData, irAxiCtrl]
  by_cases h2 : ir = irAxiData
  · subst h2
    simp [h, irAxiAddr, irAxiData, irAxiCtrl]
  simp only [h1, h2, h, if_false, and_true]
  split
  · rfl
  · rw [← h]

/-- A handshake of the master port, with the address and data of the transaction. -/
def axi (s : Spec) (e : JEvent) : Option HostPhase :=
  match s.phase, e with
  | .waiting rw (.write false w), .aw a => if s.addr = some a then some (.waiting rw (.write true w)) else none
  | .waiting rw (.write aw false), .w d strb =>
    if s.data = some d ∧ strb = 0xF then some (.waiting rw (.write aw true)) else none
  | .waiting rw (.write true true), .b resp => some (.waiting rw (.answered none resp))
  | .waiting rw (.read false), .ar a => if s.addr = some a then some (.waiting rw (.read true)) else none
  | .waiting rw (.read true), .r d resp => some (.waiting rw (.answered (some d) resp))
  | _, _ => none

/-- One event: `none` where the bridge has done what it must not. -/
def specStep (s : Spec) : JEvent → Option Spec
  | .capture ir word =>
    let s' := { s with bits := [] }
    if ir = irAxiCtrl then s'.captureCtrl (word.getLsbD 0) (word.getLsbD 1)
    -- between transactions AXI_DATA is known
    else if ir = irAxiData ∧ s.phase = .idle ∧ s.data ≠ none ∧ s.data ≠ some word then none
    else some s'
  | .shift tdi => some { s with bits := s.bits ++ [tdi] }
  | .update ir _ => some (s.updateReg ir)
  | .testLogicReset => some s
  | e => (s.axi e).map fun p => { s with phase := p }

theorem specStep_capture (s : Spec) (ir : BitVec 4) (word : Word32) :
    s.specStep (.capture ir word) =
      if ir = irAxiCtrl then captureCtrl { s with bits := [] } (word.getLsbD 0) (word.getLsbD 1)
      else if ir = irAxiData ∧ s.phase = .idle ∧ s.data ≠ none ∧ s.data ≠ some word then none
      else some { s with bits := [] } := rfl

theorem specStep_shift (s : Spec) (tdi : Bool) : s.specStep (.shift tdi) = some { s with bits := s.bits ++ [tdi] } := rfl

theorem specStep_update (s : Spec) (ir : BitVec 4) (busy : Bool) :
    s.specStep (.update ir busy) = some (s.updateReg ir) := rfl

theorem specStep_testLogicReset (s : Spec) : s.specStep .testLogicReset = some s := rfl

/-- The events of a log, in order. -/
def follow (s : Spec) (l : List JEvent) : Option Spec := l.foldlM specStep s

theorem follow_nil (s : Spec) : s.follow [] = some s := rfl

theorem follow_singleton (s : Spec) (e : JEvent) : s.follow [e] = s.specStep e := by
  simp [follow]

theorem follow_append (s : Spec) (l l' : List JEvent) : s.follow (l ++ l') = (s.follow l).bind (·.follow l') := by
  simp [follow, List.foldlM_append]

end Spec

/-! ## The host's side -/

/-- The registers of the bridge, written by full scans. -/
def isAxiReg (ir : BitVec 4) : Bool := ir = irAxiAddr || ir = irAxiData || ir = irAxiCtrl

/-- What the host does at `e`: full scans only, no START before an address (and,
for a write, data) is scanned; while it waits no Test-Logic-Reset and no update
but of AXI_CTRL, with START = 0 and with an RW bit that `rwOk` allows. -/
def hostRule (rwOk : Bool → Bool → Bool → Prop) (s : Spec) : JEvent → Prop
  | .update ir busy =>
    isAxiReg ir = true → s.bits.length = 32 ∧
      match s.phase with
      | .idle => ir = irAxiCtrl → (wordOf s.bits).getLsbD 0 = true →
          s.addr ≠ none ∧ ((wordOf s.bits).getLsbD 1 = false → s.data ≠ none)
      | .waiting rw _ => ir = irAxiCtrl ∧ (wordOf s.bits).getLsbD 0 = false ∧ rwOk rw busy ((wordOf s.bits).getLsbD 1)
  | .testLogicReset => s.phase = .idle
  | _ => True

/-- The host keeps its rule at every event, in the state that the events before it
lead to. -/
def HostKeeps (rule : Spec → JEvent → Prop) (l : List JEvent) : Prop :=
  ∀ pre e post, l = pre ++ e :: post → ∀ s, Spec.init.follow pre = some s → rule s e

end RiscvSoc.Jtag
