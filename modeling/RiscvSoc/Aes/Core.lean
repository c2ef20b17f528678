import RiscvSoc.Aes.Pkg
/-!
# `aes_key_expand.v` and `aes_core.v`

The registers of both modules and what one clock edge does to them. Outputs
that are wires are functions of the registers and the inputs. Registers a reset
does not touch keep their value, whatever it was.
-/

namespace RiscvSoc.Aes

abbrev Block := BitVec 128

/-! ## `aes_key_expand` -/

inductive KeState
  | idle
  | expand
  deriving DecidableEq, Repr

/-- Only `rk 0 .. rk 10` exist in the register file; nothing writes the others. -/
structure KeyExpand where
  state : KeState
  roundIdx : BitVec 4
  done : Bool
  rk : BitVec 4 → Block

def rconByte (r : BitVec 4) : Byte :=
  match r.toNat with
  | 1 => 0x01
  | 2 => 0x02
  | 3 => 0x04
  | 4 => 0x08
  | 5 => 0x10
  | 6 => 0x20
  | 7 => 0x40
  | 8 => 0x80
  | 9 => 0x1b
  | 10 => 0x36
  | _ => 0x00

def subWord (w : BitVec 32) : BitVec 32 :=
  aesSboxFwd (w.extractLsb' 24 8) ++ aesSboxFwd (w.extractLsb' 16 8) ++
    aesSboxFwd (w.extractLsb' 8 8) ++ aesSboxFwd (w.extractLsb' 0 8)

def rotWord (w : BitVec 32) : BitVec 32 := w.extractLsb' 0 24 ++ w.extractLsb' 24 8

/-- `{rcon_byte(r), 24'h0}`. -/
def rconWord (r : BitVec 4) : BitVec 32 := rconByte r ++ 0#24

/-- `{new_w0, new_w1, new_w2, new_w3}`, for round `r` from the round key before it. -/
def nextRoundKey (r : BitVec 4) (prev : Block) : Block :=
  let prevW0 := prev.extractLsb' 96 32
  let prevW1 := prev.extractLsb' 64 32
  let prevW2 := prev.extractLsb' 32 32
  let prevW3 := prev.extractLsb' 0 32
  let newW0 : BitVec 32 := prevW0 ^^^ subWord (rotWord prevW3) ^^^ rconWord r
  let newW1 := newW0 ^^^ prevW1
  let newW2 := newW1 ^^^ prevW2
  let newW3 := newW2 ^^^ prevW3
  newW0 ++ newW1 ++ newW2 ++ newW3

def KeyExpand.step (resetn start : Bool) (keyIn : Block) (s : KeyExpand) : KeyExpand :=
  if !resetn then { s with state := .idle, roundIdx := 0, done := false }
  else match s.state with
    | .idle =>
      if start then
        { s with rk := Function.update s.rk 0 keyIn, roundIdx := 1, state := .expand, done := false }
      else { s with done := false }
    | .expand =>
      let rk := Function.update s.rk s.roundIdx (nextRoundKey s.roundIdx (s.rk (s.roundIdx - 1)))
      if s.roundIdx = 10 then { s with rk := rk, done := true, state := .idle }
      else { s with rk := rk, roundIdx := s.roundIdx + 1, done := false }

/-! ## The round transforms of `aes_core` -/

def byteAt (s : Block) (i : ℕ) : Byte := s.extractLsb' ((15 - i) * 8) 8

/-- `{f(byte i0), f(byte i1), .., f(byte i15)}`, in rows of four: bytes of `s` picked and mapped. -/
def mapBytes (f : Byte → Byte) (s : Block) (i0 i1 i2 i3 i4 i5 i6 i7 i8 i9 i10 i11 i12 i13 i14 i15 : ℕ) : Block :=
  let row (a b c d : ℕ) : BitVec 32 := f (byteAt s a) ++ f (byteAt s b) ++ f (byteAt s c) ++ f (byteAt s d)
  row i0 i1 i2 i3 ++ row i4 i5 i6 i7 ++ row i8 i9 i10 i11 ++ row i12 i13 i14 i15

def aesSubBytes (s : Block) : Block :=
  mapBytes aesSboxFwd s 0 1 2 3 4 5 6 7 8 9 10 11 12 13 14 15

def aesInvSubBytes (s : Block) : Block :=
  mapBytes aesSboxInv s 0 1 2 3 4 5 6 7 8 9 10 11 12 13 14 15

def aesShiftRows (s : Block) : Block :=
  mapBytes id s 0 5 10 15 4 9 14 3 8 13 2 7 12 1 6 11

def aesInvShiftRows (s : Block) : Block :=
  mapBytes id s 0 13 10 7 4 1 14 11 8 5 2 15 12 9 6 3

def aesMixColumn (s0 s1 s2 s3 : Byte) : BitVec 32 :=
  (aesGmul2 s0 ^^^ aesGmul3 s1 ^^^ s2 ^^^ s3) ++
  (s0 ^^^ aesGmul2 s1 ^^^ aesGmul3 s2 ^^^ s3) ++
  (s0 ^^^ s1 ^^^ aesGmul2 s2 ^^^ aesGmul3 s3) ++
  (aesGmul3 s0 ^^^ s1 ^^^ s2 ^^^ aesGmul2 s3)

def aesInvMixColumn (s0 s1 s2 s3 : Byte) : BitVec 32 :=
  (aesGmul14 s0 ^^^ aesGmul11 s1 ^^^ aesGmul13 s2 ^^^ aesGmul9 s3) ++
  (aesGmul9 s0 ^^^ aesGmul14 s1 ^^^ aesGmul11 s2 ^^^ aesGmul13 s3) ++
  (aesGmul13 s0 ^^^ aesGmul9 s1 ^^^ aesGmul14 s2 ^^^ aesGmul11 s3) ++
  (aesGmul11 s0 ^^^ aesGmul13 s1 ^^^ aesGmul9 s2 ^^^ aesGmul14 s3)

/-- `col` on each of the four columns. -/
def mapColumns (col : Byte → Byte → Byte → Byte → BitVec 32) (s : Block) : Block :=
  col (byteAt s 0) (byteAt s 1) (byteAt s 2) (byteAt s 3) ++
  col (byteAt s 4) (byteAt s 5) (byteAt s 6) (byteAt s 7) ++
  col (byteAt s 8) (byteAt s 9) (byteAt s 10) (byteAt s 11) ++
  col (byteAt s 12) (byteAt s 13) (byteAt s 14) (byteAt s 15)

def aesMixColumns : Block → Block := mapColumns aesMixColumn

def aesInvMixColumns : Block → Block := mapColumns aesInvMixColumn

/-! ## `aes_core` -/

inductive CoreState
  | idle
  | keyexp
  | round
  | final
  deriving DecidableEq, Repr

structure AesCore where
  state : CoreState
  encdecReg : Bool
  rnum : BitVec 4
  dataReg : Block
  busy : Bool
  done : Bool
  dataOut : Block
  uKeyExpand : KeyExpand

structure CoreIn where
  start : Bool
  encdec : Bool
  keyIn : Block
  dataIn : Block

namespace AesCore

def keStart (s : AesCore) (i : CoreIn) : Bool := s.state = .idle && i.start

def rkSel (s : AesCore) : Block := s.uKeyExpand.rk s.rnum

def subShiftEnc (s : AesCore) : Block := aesShiftRows (aesSubBytes s.dataReg)
def encRoundNext (s : AesCore) : Block := aesMixColumns s.subShiftEnc ^^^ s.rkSel
def encFinalNext (s : AesCore) : Block := s.subShiftEnc ^^^ s.rkSel

def subShiftDec (s : AesCore) : Block := aesInvSubBytes (aesInvShiftRows s.dataReg)
def decRoundNext (s : AesCore) : Block := aesInvMixColumns (s.subShiftDec ^^^ s.rkSel)
def decFinalNext (s : AesCore) : Block := s.subShiftDec ^^^ s.rkSel

/-- The clock edge of `aes_core`'s own registers. -/
def fsm (s : AesCore) (i : CoreIn) : AesCore :=
  match s.state with
  | .idle =>
    if i.start then
      { s with done := false, encdecReg := i.encdec, dataReg := i.dataIn, busy := true, state := .keyexp }
    else { s with done := false, busy := false }
  | .keyexp =>
    if s.uKeyExpand.done then
      -- decryption takes the round keys from the last to the first
      if s.encdecReg then
        { s with done := false, dataReg := s.dataReg ^^^ s.uKeyExpand.rk 10, rnum := 9, state := .round }
      else
        { s with done := false, dataReg := s.dataReg ^^^ s.uKeyExpand.rk 0, rnum := 1, state := .round }
    else { s with done := false }
  | .round =>
    if !s.encdecReg then
      if s.rnum = 9 then
        { s with done := false, dataReg := s.encRoundNext, rnum := 10, state := .final }
      else { s with done := false, dataReg := s.encRoundNext, rnum := s.rnum + 1 }
    else
      if s.rnum = 1 then
        { s with done := false, dataReg := s.decRoundNext, rnum := 0, state := .final }
      else { s with done := false, dataReg := s.decRoundNext, rnum := s.rnum - 1 }
  | .final =>
    { s with
      dataOut := if s.encdecReg then s.decFinalNext else s.encFinalNext
      busy := false, done := true, state := .idle }

/-- One clock edge of the core and of its key expansion, which sees the core's
registers as they were before the edge. -/
def step (resetn : Bool) (s : AesCore) (i : CoreIn) : AesCore :=
  let ke := s.uKeyExpand.step resetn (s.keStart i) i.keyIn
  if !resetn then { s with state := .idle, busy := false, done := false, uKeyExpand := ke }
  else { s.fsm i with uKeyExpand := ke }

end AesCore

end RiscvSoc.Aes
