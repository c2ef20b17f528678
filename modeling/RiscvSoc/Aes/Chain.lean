import RiscvSoc.Aes.Core
/-!
# `aes_chain.v`

ECB, CBC and CTR around one `aes_core`. The core takes its inputs from the live
`mode` and `encdec` ports; the latched copies are used when its result comes
back. Mode 3 has no name in the source and falls in the `default` of ECB.
-/

namespace RiscvSoc.Aes

def modeEcb : BitVec 2 := 0
def modeCbc : BitVec 2 := 1
def modeCtr : BitVec 2 := 2

inductive ChainState
  | idle
  | core
  deriving DecidableEq, Repr

structure AesChain where
  state : ChainState
  modeReg : BitVec 2
  encdecReg : Bool
  dataInReg : Block
  ivReg : Block
  dataOutReg : Block
  doneReg : Bool
  uCore : AesCore

structure ChainIn where
  loadIv : Bool
  ivIn : Block
  start : Bool
  encdec : Bool
  mode : BitVec 2
  keyIn : Block
  dataIn : Block

namespace AesChain

def busy (s : AesChain) : Bool := s.state ≠ .idle

def coreStart (s : AesChain) (i : ChainIn) : Bool := s.state = .idle && i.start

def coreEncdec (i : ChainIn) : Bool := if i.mode = modeCtr then false else i.encdec

def coreDataIn (s : AesChain) (i : ChainIn) : Block :=
  if i.mode = modeCbc ∧ i.encdec = false then i.dataIn ^^^ s.ivReg
  else if i.mode = modeCtr then s.ivReg
  else i.dataIn

/-- The ports of `u_core`. -/
def coreIn (s : AesChain) (i : ChainIn) : CoreIn :=
  ⟨s.coreStart i, coreEncdec i, i.keyIn, s.coreDataIn i⟩

/-- The edge of the chain's own registers; `load_iv` comes first, so a block that
finishes on the same edge overrides it. -/
def fsm (s : AesChain) (i : ChainIn) : AesChain :=
  let ivReg := if i.loadIv then i.ivIn else s.ivReg
  match s.state with
  | .idle =>
    if i.start then
      { s with
        doneReg := false, ivReg := ivReg, modeReg := i.mode, encdecReg := i.encdec, dataInReg := i.dataIn
        state := .core }
    else { s with doneReg := false, ivReg := ivReg }
  | .core =>
    if s.uCore.done then
      if s.modeReg = modeCbc then
        if !s.encdecReg then
          { s with
            dataOutReg := s.uCore.dataOut, ivReg := s.uCore.dataOut, doneReg := true, state := .idle }
        else
          { s with
            dataOutReg := s.uCore.dataOut ^^^ s.ivReg, ivReg := s.dataInReg, doneReg := true, state := .idle }
      else if s.modeReg = modeCtr then
        { s with
          dataOutReg := s.dataInReg ^^^ s.uCore.dataOut, ivReg := s.ivReg + 1, doneReg := true, state := .idle }
      else { s with dataOutReg := s.uCore.dataOut, ivReg := ivReg, doneReg := true, state := .idle }
    else { s with doneReg := false, ivReg := ivReg }

def step (resetn : Bool) (s : AesChain) (i : ChainIn) : AesChain :=
  let core := s.uCore.step resetn (s.coreIn i)
  if !resetn then { s with state := .idle, doneReg := false, ivReg := 0, uCore := core }
  else { s.fsm i with uCore := core }

end AesChain

end RiscvSoc.Aes
