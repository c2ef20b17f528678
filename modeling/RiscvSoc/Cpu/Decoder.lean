import RiscvSoc.Axi
/-!
# The instruction decoder of `picorv32`

In the cycle in which a word comes in the decoder sorts it out roughly, and the bits of a
compressed instruction go in `mem_rdata_q` where a full one has its `funct3`, `funct7` and
immediate; the rest is read from there a cycle later.
-/

namespace RiscvSoc.Cpu

/-- What the decoder takes from the word that comes in. -/
structure DecodeFirst where
  instrLui : Bool
  instrAuipc : Bool
  instrJal : Bool
  instrJalr : Bool
  instrRetirq : Bool
  instrWaitirq : Bool
  isBeqBneBltBgeBltuBgeu : Bool
  isLbLhLwLbuLhu : Bool
  isSbShSw : Bool
  isAluRegImm : Bool
  isAluRegReg : Bool
  decodedImmJ : Word32
  decodedRd : BitVec 6
  decodedRs1 : BitVec 6
  decodedRs2 : BitVec 5
  compressedInstr : Bool
  deriving Inhabited

/-- What it takes from `mem_rdata_q` a cycle later. -/
structure DecodeSecond where
  instrBeq : Bool
  instrBne : Bool
  instrBlt : Bool
  instrBge : Bool
  instrBltu : Bool
  instrBgeu : Bool
  instrLb : Bool
  instrLh : Bool
  instrLw : Bool
  instrLbu : Bool
  instrLhu : Bool
  instrSb : Bool
  instrSh : Bool
  instrSw : Bool
  instrAddi : Bool
  instrSlti : Bool
  instrSltiu : Bool
  instrXori : Bool
  instrOri : Bool
  instrAndi : Bool
  instrSlli : Bool
  instrSrli : Bool
  instrSrai : Bool
  instrAdd : Bool
  instrSub : Bool
  instrSll : Bool
  instrSlt : Bool
  instrSltu : Bool
  instrXor : Bool
  instrSrl : Bool
  instrSra : Bool
  instrOr : Bool
  instrAnd : Bool
  instrRdcycle : Bool
  instrRdcycleh : Bool
  instrRdinstr : Bool
  instrRdinstrh : Bool
  instrEcallEbreak : Bool
  instrFence : Bool
  instrGetq : Bool
  instrSetq : Bool
  instrMaskirq : Bool
  instrTimer : Bool
  isSlliSrliSrai : Bool
  isJalrAddiSltiSltiuXoriOriAndi : Bool
  isSllSrlSra : Bool
  decodedImm : Word32
  pcpiInsn : Word32
  deriving Inhabited

/-- Classes of instructions, a cycle after the instructions. -/
structure DecodeClass where
  isLuiAuipcJal : Bool
  isLuiAuipcJalJalrAddiAddSub : Bool
  isSltiBltSlt : Bool
  isSltiuBltuSltu : Bool
  isLbuLhuLw : Bool
  isCompare : Bool
  deriving Inhabited

/-! ## `mem_rdata_q` -/

/-- A word with `funct3` replaced. -/
def setFunct3 (v : BitVec 3) (q : Word32) : Word32 := q.extractLsb 31 15 ++ v ++ q.extractLsb 11 0

/-- A word with bits 31 to 25 replaced. -/
def setFunct7 (v : BitVec 7) (q : Word32) : Word32 := v ++ q.extractLsb 24 0

/-- A word with the immediate of the I type replaced. -/
def setImmI (v : BitVec 12) (q : Word32) : Word32 := v ++ q.extractLsb 19 0

/-- A word with the immediate of the S type replaced. -/
def setImmS (v : BitVec 12) (q : Word32) : Word32 := v.extractLsb 11 5 ++ q.extractLsb 24 12 ++ v.extractLsb 4 0 ++ q.extractLsb 6 0

/-- A word with the immediate of the U type replaced. -/
def setImmU (v : BitVec 20) (q : Word32) : Word32 := v ++ q.extractLsb 11 0

/-- A word with bits 31, 7, 30 to 25 and 11 to 8 replaced. -/
def setImmB (v : BitVec 12) (q : Word32) : Word32 :=
  v.extractLsb 11 11 ++ v.extractLsb 9 4 ++ q.extractLsb 24 12 ++ v.extractLsb 3 0 ++ v.extractLsb 10 10 ++ q.extractLsb 6 0

/-! What is put in `q` when the compressed instruction `l` is in. -/

/-- The six-bit immediate of most compressed instructions. -/
def imm6 (l : Word32) : BitVec 12 := (l.extractLsb 12 12 ++ l.extractLsb 6 2).signExtend 12

def expandQ0 (l q : Word32) : Word32 :=
  let funct : BitVec 3 := l.extractLsb 15 13
  if funct = 0b000 then
    setImmI (0b00#2 ++ l.extractLsb 10 7 ++ l.extractLsb 12 11 ++ l.extractLsb 5 5 ++ l.extractLsb 6 6 ++ 0b00#2) (setFunct3 0b000 q)
  else if funct = 0b010 then
    setFunct3 0b010 (setImmI (0b00000#5 ++ l.extractLsb 5 5 ++ l.extractLsb 12 10 ++ l.extractLsb 6 6 ++ 0b00#2) q)
  else if funct = 0b110 then
    setFunct3 0b010 (setImmS (0b00000#5 ++ l.extractLsb 5 5 ++ l.extractLsb 12 10 ++ l.extractLsb 6 6 ++ 0b00#2) q)
  else q

def expandQ1 (l q : Word32) : Word32 :=
  let funct : BitVec 3 := l.extractLsb 15 13
  if funct = 0b000 || funct = 0b010 then setImmI (imm6 l) (setFunct3 0b000 q)
  else if funct = 0b011 then
    if l.extractLsb 11 7 = 2#5 then
      setImmI ((l.extractLsb 12 12 ++ l.extractLsb 4 3 ++ l.extractLsb 5 5 ++ l.extractLsb 2 2 ++ l.extractLsb 6 6 ++ 0b0000#4).signExtend 12)
        (setFunct3 0b000 q)
    else setImmU ((l.extractLsb 12 12 ++ l.extractLsb 6 2).signExtend 20) q
  else if funct = 0b100 then
    let funct2 : BitVec 2 := l.extractLsb 11 10
    if funct2 = 0b00 then setFunct3 0b101 (setFunct7 0b0000000 q)
    else if funct2 = 0b01 then setFunct3 0b101 (setFunct7 0b0100000 q)
    else if funct2 = 0b10 then setImmI (imm6 l) (setFunct3 0b111 q)
    else if l.extractLsb 12 10 = 0b011#3 then
      let op : BitVec 2 := l.extractLsb 6 5
      setFunct7 (if op = 0b00 then 0b0100000 else 0b0000000)
        (setFunct3 (if op = 0b00 then 0b000 else if op = 0b01 then 0b100 else if op = 0b10 then 0b110 else 0b111) q)
    else q
  else if funct = 0b110 || funct = 0b111 then
    setImmB ((l.extractLsb 12 12 ++ l.extractLsb 6 5 ++ l.extractLsb 2 2 ++ l.extractLsb 11 10 ++ l.extractLsb 4 3).signExtend 12)
      (setFunct3 (if funct = 0b110 then 0b000 else 0b001) q)
  else q

def expandQ2 (l q : Word32) : Word32 :=
  let funct : BitVec 3 := l.extractLsb 15 13
  if funct = 0b000 then setFunct3 0b001 (setFunct7 0b0000000 q)
  else if funct = 0b010 then
    setFunct3 0b010 (setImmI (0b0000#4 ++ l.extractLsb 3 2 ++ l.extractLsb 12 12 ++ l.extractLsb 6 4 ++ 0b00#2) q)
  else if funct = 0b100 then
    if l.extractLsb 12 12 = 0#1 then
      if l.extractLsb 6 2 = 0#5 then setImmI 0 (setFunct3 0b000 q) else setFunct7 0b0000000 (setFunct3 0b000 q)
    else if l.extractLsb 6 2 = 0#5 then
      if l.extractLsb 11 7 ≠ 0#5 then setImmI 0 (setFunct3 0b000 q) else q
    else setFunct7 0b0000000 (setFunct3 0b000 q)
  else if funct = 0b110 then
    setFunct3 0b010 (setImmS (0b0000#4 ++ l.extractLsb 8 7 ++ l.extractLsb 12 9 ++ 0b00#2) q)
  else q

def expandQ (l q : Word32) : Word32 :=
  let quadrant : BitVec 2 := l.extractLsb 1 0
  if quadrant = 0b00 then expandQ0 l q else if quadrant = 0b01 then expandQ1 l q else if quadrant = 0b10 then expandQ2 l q else q

/-! ## The first stage -/

/-- One of `x8` to `x15`. -/
def creg (v : BitVec 3) : BitVec 5 := 0b01#2 ++ v

namespace DecodeFirst

/-- A full instruction. -/
def ofFull (l : Word32) : DecodeFirst :=
  let opcode := l.extractLsb 6 0
  let funct7 := l.extractLsb 31 25
  { instrLui := opcode = 0b0110111
    instrAuipc := opcode = 0b0010111
    instrJal := opcode = 0b1101111
    instrJalr := opcode = 0b1100111 && l.extractLsb 14 12 = 0b000
    instrRetirq := opcode = 0b0001011 && funct7 = 0b0000010
    instrWaitirq := opcode = 0b0001011 && funct7 = 0b0000100
    isBeqBneBltBgeBltuBgeu := opcode = 0b1100011
    isLbLhLwLbuLhu := opcode = 0b0000011
    isSbShSw := opcode = 0b0100011
    isAluRegImm := opcode = 0b0010011
    isAluRegReg := opcode = 0b0110011
    decodedImmJ :=
      (l.extractLsb 31 31).signExtend 12 ++ l.extractLsb 19 12 ++ l.extractLsb 20 20 ++ l.extractLsb 30 21 ++ 0#1
    decodedRd := (l.extractLsb 11 7).setWidth 6
    decodedRs1 :=
      if opcode = 0b0001011 && funct7 = 0b0000010 then 32
      else if opcode = 0b0001011 && funct7 = 0b0000000 then 1#1 ++ l.extractLsb 19 15
      else (l.extractLsb 19 15).setWidth 6
    decodedRs2 := l.extractLsb 24 20
    compressedInstr := false }

/-! A compressed instruction: what its bits do not say is kept of `f`. -/

def fieldR11_7 (l : Word32) : BitVec 6 := (l.extractLsb 11 7).setWidth 6
def fieldR9_7 (l : Word32) : BitVec 6 := (creg (l.extractLsb 9 7)).setWidth 6

def ofQ0 (l : Word32) (f : DecodeFirst) : DecodeFirst :=
  let funct : BitVec 3 := l.extractLsb 15 13
  if funct = 0b000 then
    { f with isAluRegImm := l.extractLsb 12 5 ≠ 0#8, decodedRs1 := 2, decodedRd := (creg (l.extractLsb 4 2)).setWidth 6 }
  else if funct = 0b010 then
    { f with isLbLhLwLbuLhu := true, decodedRs1 := fieldR9_7 l, decodedRd := (creg (l.extractLsb 4 2)).setWidth 6 }
  else if funct = 0b110 then { f with isSbShSw := true, decodedRs1 := fieldR9_7 l, decodedRs2 := creg (l.extractLsb 4 2) }
  else f

def ofQ1 (l : Word32) (f : DecodeFirst) : DecodeFirst :=
  let funct : BitVec 3 := l.extractLsb 15 13
  if funct = 0b000 then { f with isAluRegImm := true, decodedRd := fieldR11_7 l, decodedRs1 := fieldR11_7 l }
  else if funct = 0b001 then { f with instrJal := true, decodedRd := 1 }
  else if funct = 0b010 then { f with isAluRegImm := true, decodedRd := fieldR11_7 l, decodedRs1 := 0 }
  else if funct = 0b011 then
    if l.extractLsb 12 12 ≠ 0#1 || l.extractLsb 6 2 ≠ 0#5 then
      if l.extractLsb 11 7 = 2#5 then { f with isAluRegImm := true, decodedRd := fieldR11_7 l, decodedRs1 := fieldR11_7 l }
      else { f with instrLui := true, decodedRd := fieldR11_7 l, decodedRs1 := 0 }
    else f
  else if funct = 0b100 then
    if l.extractLsb 11 11 = 0#1 && l.extractLsb 12 12 = 0#1 then
      { f with isAluRegImm := true, decodedRd := fieldR9_7 l, decodedRs1 := fieldR9_7 l, decodedRs2 := l.extractLsb 6 2 }
    else if l.extractLsb 11 10 = 0b10#2 then { f with isAluRegImm := true, decodedRd := fieldR9_7 l, decodedRs1 := fieldR9_7 l }
    else if l.extractLsb 12 10 = 0b011#3 then
      { f with isAluRegReg := true, decodedRd := fieldR9_7 l, decodedRs1 := fieldR9_7 l, decodedRs2 := creg (l.extractLsb 4 2) }
    else f
  else if funct = 0b101 then { f with instrJal := true }
  else { f with isBeqBneBltBgeBltuBgeu := true, decodedRs1 := fieldR9_7 l, decodedRs2 := 0 }

def ofQ2 (l : Word32) (f : DecodeFirst) : DecodeFirst :=
  let funct : BitVec 3 := l.extractLsb 15 13
  if funct = 0b000 then
    if l.extractLsb 12 12 = 0#1 then
      { f with isAluRegImm := true, decodedRd := fieldR11_7 l, decodedRs1 := fieldR11_7 l, decodedRs2 := l.extractLsb 6 2 }
    else f
  else if funct = 0b010 then
    if l.extractLsb 11 7 ≠ 0#5 then { f with isLbLhLwLbuLhu := true, decodedRd := fieldR11_7 l, decodedRs1 := 2 } else f
  else if funct = 0b100 then
    if l.extractLsb 12 12 = 0#1 then
      if l.extractLsb 6 2 = 0#5 then
        if l.extractLsb 11 7 = 0#5 then f else { f with instrJalr := true, decodedRd := 0, decodedRs1 := fieldR11_7 l }
      else { f with isAluRegReg := true, decodedRd := fieldR11_7 l, decodedRs1 := 0, decodedRs2 := l.extractLsb 6 2 }
    else if l.extractLsb 6 2 = 0#5 then
      if l.extractLsb 11 7 = 0#5 then f else { f with instrJalr := true, decodedRd := 1, decodedRs1 := fieldR11_7 l }
    else { f with isAluRegReg := true, decodedRd := fieldR11_7 l, decodedRs1 := fieldR11_7 l, decodedRs2 := l.extractLsb 6 2 }
  else if funct = 0b110 then { f with isSbShSw := true, decodedRs1 := 2, decodedRs2 := l.extractLsb 6 2 }
  else f

/-- What every compressed instruction sets. -/
def compressed (l : Word32) (f : DecodeFirst) : DecodeFirst :=
  { f with
    compressedInstr := true
    decodedRd := 0, decodedRs1 := 0, decodedRs2 := 0
    decodedImmJ :=
      (l.extractLsb 12 12).signExtend 21 ++ l.extractLsb 8 8 ++ l.extractLsb 10 9 ++ l.extractLsb 6 6 ++ l.extractLsb 7 7 ++
        l.extractLsb 2 2 ++ l.extractLsb 11 11 ++ l.extractLsb 5 3 ++ 0#1 }

def ofCompressed (l : Word32) (f : DecodeFirst) : DecodeFirst :=
  let quadrant : BitVec 2 := l.extractLsb 1 0
  let f := compressed l f
  if quadrant = 0b00 then ofQ0 l f else if quadrant = 0b01 then ofQ1 l f else if quadrant = 0b10 then ofQ2 l f else f

/-- The word `l` has come in. -/
def ofWord (l : Word32) : DecodeFirst :=
  if l.extractLsb 1 0 ≠ 0b11#2 then ofCompressed l (ofFull l) else ofFull l

end DecodeFirst

/-! ## The second stage -/

/-- What is read from `mem_rdata_q`; `x` is the immediate of an instruction that has none. -/
def DecodeSecond.ofWord (q : Word32) (f : DecodeFirst) (x : Word32) : DecodeSecond :=
  let opcode := q.extractLsb 6 0
  let funct3 := q.extractLsb 14 12
  let funct7 := q.extractLsb 31 25
  let shift := (funct3 = 0b001 && funct7 = 0b0000000) || (funct3 = 0b101 && funct7 = 0b0000000) ||
    (funct3 = 0b101 && funct7 = 0b0100000)
  { instrBeq := f.isBeqBneBltBgeBltuBgeu && funct3 = 0b000
    instrBne := f.isBeqBneBltBgeBltuBgeu && funct3 = 0b001
    instrBlt := f.isBeqBneBltBgeBltuBgeu && funct3 = 0b100
    instrBge := f.isBeqBneBltBgeBltuBgeu && funct3 = 0b101
    instrBltu := f.isBeqBneBltBgeBltuBgeu && funct3 = 0b110
    instrBgeu := f.isBeqBneBltBgeBltuBgeu && funct3 = 0b111
    instrLb := f.isLbLhLwLbuLhu && funct3 = 0b000
    instrLh := f.isLbLhLwLbuLhu && funct3 = 0b001
    instrLw := f.isLbLhLwLbuLhu && funct3 = 0b010
    instrLbu := f.isLbLhLwLbuLhu && funct3 = 0b100
    instrLhu := f.isLbLhLwLbuLhu && funct3 = 0b101
    instrSb := f.isSbShSw && funct3 = 0b000
    instrSh := f.isSbShSw && funct3 = 0b001
    instrSw := f.isSbShSw && funct3 = 0b010
    instrAddi := f.isAluRegImm && funct3 = 0b000
    instrSlti := f.isAluRegImm && funct3 = 0b010
    instrSltiu := f.isAluRegImm && funct3 = 0b011
    instrXori := f.isAluRegImm && funct3 = 0b100
    instrOri := f.isAluRegImm && funct3 = 0b110
    instrAndi := f.isAluRegImm && funct3 = 0b111
    instrSlli := f.isAluRegImm && funct3 = 0b001 && funct7 = 0b0000000
    instrSrli := f.isAluRegImm && funct3 = 0b101 && funct7 = 0b0000000
    instrSrai := f.isAluRegImm && funct3 = 0b101 && funct7 = 0b0100000
    instrAdd := f.isAluRegReg && funct3 = 0b000 && funct7 = 0b0000000
    instrSub := f.isAluRegReg && funct3 = 0b000 && funct7 = 0b0100000
    instrSll := f.isAluRegReg && funct3 = 0b001 && funct7 = 0b0000000
    instrSlt := f.isAluRegReg && funct3 = 0b010 && funct7 = 0b0000000
    instrSltu := f.isAluRegReg && funct3 = 0b011 && funct7 = 0b0000000
    instrXor := f.isAluRegReg && funct3 = 0b100 && funct7 = 0b0000000
    instrSrl := f.isAluRegReg && funct3 = 0b101 && funct7 = 0b0000000
    instrSra := f.isAluRegReg && funct3 = 0b101 && funct7 = 0b0100000
    instrOr := f.isAluRegReg && funct3 = 0b110 && funct7 = 0b0000000
    instrAnd := f.isAluRegReg && funct3 = 0b111 && funct7 = 0b0000000
    instrRdcycle := opcode = 0b1110011 && (q.extractLsb 31 12 = 0b11000000000000000010 || q.extractLsb 31 12 = 0b11000000000100000010)
    instrRdcycleh := opcode = 0b1110011 && (q.extractLsb 31 12 = 0b11001000000000000010 || q.extractLsb 31 12 = 0b11001000000100000010)
    instrRdinstr := opcode = 0b1110011 && q.extractLsb 31 12 = 0b11000000001000000010
    instrRdinstrh := opcode = 0b1110011 && q.extractLsb 31 12 = 0b11001000001000000010
    instrEcallEbreak := (opcode = 0b1110011 && q.extractLsb 31 21 = 0 && q.extractLsb 19 7 = 0) || q.extractLsb 15 0 = 0x9002
    instrFence := opcode = 0b0001111 && funct3 = 0
    instrGetq := opcode = 0b0001011 && funct7 = 0b0000000
    instrSetq := opcode = 0b0001011 && funct7 = 0b0000001
    instrMaskirq := opcode = 0b0001011 && funct7 = 0b0000011
    instrTimer := opcode = 0b0001011 && funct7 = 0b0000101
    isSlliSrliSrai := f.isAluRegImm && shift
    isJalrAddiSltiSltiuXoriOriAndi :=
      f.instrJalr || (f.isAluRegImm && (funct3 = 0b000 || funct3 = 0b010 || funct3 = 0b011 || funct3 = 0b100 ||
        funct3 = 0b110 || funct3 = 0b111))
    isSllSrlSra := f.isAluRegReg && shift
    decodedImm :=
      if f.instrJal then f.decodedImmJ
      else if f.instrLui || f.instrAuipc then q.extractLsb 31 12 ++ 0#12
      else if f.instrJalr || f.isLbLhLwLbuLhu || f.isAluRegImm then (q.extractLsb 31 20).signExtend 32
      else if f.isBeqBneBltBgeBltuBgeu then
        (q.extractLsb 31 31 ++ q.extractLsb 7 7 ++ q.extractLsb 30 25 ++ q.extractLsb 11 8 ++ 0#1).signExtend 32
      else if f.isSbShSw then (q.extractLsb 31 25 ++ q.extractLsb 11 7).signExtend 32
      else x
    pcpiInsn := q }

/-! ## The reset -/

/-- The registers of the second stage that the reset clears. -/
def DecodeSecond.reset (d : DecodeSecond) : DecodeSecond :=
  { d with
    instrBeq := false, instrBne := false, instrBlt := false, instrBge := false, instrBltu := false, instrBgeu := false
    instrAddi := false, instrSlti := false, instrSltiu := false, instrXori := false, instrOri := false, instrAndi := false
    instrAdd := false, instrSub := false, instrSll := false, instrSlt := false, instrSltu := false, instrXor := false
    instrSrl := false, instrSra := false, instrOr := false, instrAnd := false, instrFence := false }

end RiscvSoc.Cpu
